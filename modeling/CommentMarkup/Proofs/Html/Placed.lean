import CommentMarkup.Proofs.Html.Token
import CommentMarkup.Proofs.Inline.Address

/-!
# Mail addresses in markup

Where a mail address stands in what nodes are written as: in a text or in the value of an attribute,
never over the edge of a tag. An obfuscated address stands nowhere.
-/

namespace CommentMarkup

open Html

/-- The phrase stands in a text only where it stands in what is around it, or if `P`. -/
def Parts (phrase t : Text) (P : Prop) : Prop :=
  ∀ x y, phrase <:+: x ++ t ++ y ↔ phrase <:+: x ∨ P ∨ phrase <:+: y

/-- As `Parts`, for texts that nothing stands in front of. -/
def Closes (phrase t : Text) (P : Prop) : Prop := ∀ y, phrase <:+: t ++ y ↔ P ∨ phrase <:+: y

section Phrase

variable {phrase a b : Text} {P Q : Prop}

theorem infix_of_nil (none : phrase <:+: []) (t : Text) : phrase <:+: t := by
  rw [List.infix_nil.mp none]
  exact List.nil_infix

theorem Parts.congr (parts : Parts phrase a P) (same : P ↔ Q) : Parts phrase a Q := by
  intro x y
  rw [parts x y, same]

theorem Parts.closes (parts : Parts phrase a P) : Closes phrase a P := by
  intro y
  have whole := parts [] y
  have none (h : phrase <:+: []) : phrase <:+: y := infix_of_nil h y
  rw [List.nil_append] at whole
  tauto

theorem Parts.append (left : Parts phrase a P) (right : Parts phrase b Q) :
    Parts phrase (a ++ b) (P ∨ Q) := by
  intro x y
  have first := left x (b ++ y)
  have second := right.closes y
  simp only [List.append_assoc] at first ⊢
  tauto

theorem Parts.around (left : Parts phrase a P) (right : Parts phrase b Q) (t : Text) :
    Parts phrase (a ++ t ++ b) (P ∨ phrase <:+: t ∨ Q) := by
  intro x y
  have first := left x (t ++ b ++ y)
  have second := right t y
  simp only [List.append_assoc] at first second ⊢
  tauto

theorem Closes.nil : Closes phrase [] False := by
  intro y
  rw [List.nil_append, false_or]

theorem Closes.congr (closes : Closes phrase a P) (same : P ↔ Q) : Closes phrase a Q := by
  intro y
  rw [closes y, same]

theorem Closes.append (left : Closes phrase a P) (right : Closes phrase b Q) :
    Closes phrase (a ++ b) (P ∨ Q) := by
  intro y
  have first := left (b ++ y)
  have second := right y
  rw [List.append_assoc]
  tauto

theorem Parts.after (parts : Parts phrase b Q) (t : Text) :
    Closes phrase (t ++ b) (phrase <:+: t ∨ Q) := by
  intro y
  have whole := parts t y
  tauto

theorem Closes.inside_iff (closes : Closes phrase a P) (filled : phrase ≠ []) : phrase <:+: a ↔ P := by
  have whole := closes []
  have none : ¬ phrase <:+: [] := fun h => filled (List.infix_nil.mp h)
  rw [List.append_nil] at whole
  tauto

end Phrase

/-! ### Mail addresses -/

section Mail

variable {address : Text} (mail : isMailAddress address)

include mail

theorem mail_cut {c : Char} (other : isMailboxChar c = false) (apart : c ≠ '@') :
    Parts address [c] False := by
  intro x y
  have places := tally_cut (mail_filled mail) (mail_absent mail other apart) x y
  have here (t : Text) := tally_pos (mail_filled mail) (t := t)
  rw [false_or, List.append_assoc, List.singleton_append, ← here, ← here, ← here, places]
  omega

theorem mail_reference {w : Text} (none : '@' ∉ w) : Parts address ('&' :: w ++ [';']) False := by
  intro x y
  have here (t : Text) := tally_pos (mail_filled mail) (t := t)
  rw [false_or, ← here, ← here, ← here, tally_reference mail none]
  omega

theorem inside_of_references {f : Char → Text}
    (each : ∀ c, f c = [c] ∨ ∃ w, f c = '&' :: w ++ [';'] ∧ '@' ∉ w) (x : Text) {t : Text}
    (inside : address <:+: x ++ t.flatMap f) : address <:+: x ++ t := by
  induction t generalizing x with
  | nil => exact inside
  | cons c t ih =>
    rw [List.flatMap_cons, ← List.append_assoc] at inside
    rcases each c with same | ⟨w, reference, none⟩
    · rw [same] at inside
      simpa using ih (x ++ [c]) inside
    · rw [reference, mail_reference mail none] at inside
      rcases inside with before | ⟨⟨⟩⟩ | behind
      · exact before.trans (List.prefix_append _ _).isInfix
      · have later : address <:+: t := ih [] behind
        exact later.trans ((List.suffix_cons c t).trans (List.suffix_append x _)).isInfix

theorem inside_of_escapeText {t : Text} (inside : address <:+: escapeText t) : address <:+: t := by
  refine inside_of_references mail (fun c => ?_) [] inside
  rcases escapeTextChar_cases c with same | ⟨w, reference, none, _⟩
  · exact .inl same
  · exact .inr ⟨w, reference, none⟩

theorem inside_of_escapeAttribute {t : Text} (inside : address <:+: escapeAttribute t) :
    address <:+: t := by
  refine inside_of_references mail (fun c => ?_) [] inside
  unfold escapeAttributeChar
  split
  · exact .inr ⟨"quot".toList, rfl, by decide⟩
  · rcases escapeTextChar_cases c with same | ⟨w, reference, none, _⟩
    · exact .inl same
    · exact .inr ⟨w, reference, none⟩

/-! ### Tags -/

theorem writeAttribute_inside {name : String} (plain : '@' ∉ name.toList) (value : Value) :
    address <:+: writeAttribute name value ↔ address <:+: value.write := by
  have quote := mail_cut mail (c := '"') (by decide) (by decide)
  have whole := (quote.around quote value.write) (name.toList ++ ['=']) []
  have front : ¬ address <:+: name.toList ++ ['='] := mail_not_inside mail (by simp [plain])
  have back : ¬ address <:+: [] := mail_not_inside mail (by simp)
  have shape : writeAttribute name value =
      (name.toList ++ ['=']) ++ (['"'] ++ value.write ++ ['"']) ++ [] := by
    simp [writeAttribute]
  rw [shape]
  tauto

theorem writeAttributes_inside (x : Text) (attributes : List Attribute) :
    address <:+: x ++ writeAttributes attributes ↔
      address <:+: x ∨ ∃ a ∈ attributes, address <:+: a.write := by
  have space := mail_cut mail (c := ' ') (by decide) (by decide)
  induction attributes generalizing x with
  | nil => simp [writeAttributes]
  | cons a attributes ih =>
    have first := space x (a.write ++ writeAttributes attributes)
    have shape : x ++ writeAttributes (a :: attributes) =
        x ++ [' '] ++ (a.write ++ writeAttributes attributes) := by
      simp [writeAttributes]
    rw [shape, first, List.exists_mem_cons_iff, false_or]
    exact or_congr_right (ih a.write)

theorem tag_parts {name back : Text} (named : name.all Char.isAlphanum)
    (attributes : List Attribute) (closed : Parts address back False) :
    Parts address ('<' :: name ++ writeAttributes attributes ++ back)
      (∃ a ∈ attributes, address <:+: a.write) := by
  have low := mail_cut mail (c := '<') (by decide) (by decide)
  have none : ¬ address <:+: name := mail_not_inside mail (at_notMem_of_alphanum named)
  have inside := writeAttributes_inside mail name attributes
  have whole := low.around closed (name ++ writeAttributes attributes)
  refine Parts.congr ?_ (P := False ∨ address <:+: name ++ writeAttributes attributes ∨ False) ?_
  · simpa using whole
  · rw [inside]
    simp [none]

theorem openTag_parts (tag : Tag) (attributes : List Attribute) :
    Parts address (openTag tag attributes) (∃ a ∈ attributes, address <:+: a.write) :=
  tag_parts mail tag.name_alphanum attributes (mail_cut mail (by decide) (by decide))

theorem voidTag_parts (tag : VoidTag) (attributes : List Attribute) :
    Parts address (voidTag tag attributes) (∃ a ∈ attributes, address <:+: a.write) := by
  have space := mail_cut mail (c := ' ') (by decide) (by decide)
  have high := mail_cut mail (c := '>') (by decide) (by decide)
  have none : ¬ address <:+: ['/'] := mail_not_inside mail (by decide)
  have closed := space.around high ['/']
  exact tag_parts mail tag.name_alphanum attributes (closed.congr (by tauto))

theorem closeTag_parts (tag : Tag) : Parts address (closeTag tag) False := by
  have low := mail_cut mail (c := '<') (by decide) (by decide)
  have high := mail_cut mail (c := '>') (by decide) (by decide)
  have named := at_notMem_of_alphanum tag.name_alphanum
  have none : ¬ address <:+: '/' :: tag.name := mail_not_inside mail (by simp [named])
  have whole := low.around high ('/' :: tag.name)
  exact whole.congr (by tauto)

/-! ### Nodes -/

theorem element_parts (tag : Tag) (attributes : List Attribute) (children : List Node) :
    Parts address (Node.element tag attributes children).write
      ((∃ a ∈ attributes, address <:+: a.write) ∨ address <:+: writeNodes children) := by
  have whole := (openTag_parts mail tag attributes).around (closeTag_parts mail tag)
    (writeNodes children)
  rw [Node.write]
  exact whole.congr (by rw [or_false])

theorem void_parts (tag : VoidTag) (attributes : List Attribute) :
    Parts address (Node.void tag attributes).write (∃ a ∈ attributes, address <:+: a.write) := by
  rw [Node.write]
  exact voidTag_parts mail tag attributes

omit mail in
theorem at_notMem_toDigits {b : Nat} (large : 1 < b) (small : b ≤ 16) (n : Nat) :
    '@' ∉ Nat.toDigits b n := at_notMem_of_alphanum (toDigits_alphanum large small n)

omit mail in
mutual

theorem at_notMem_obfuscate (t : Text) : '@' ∉ obfuscate t := by
  cases t with
  | nil => simp [obfuscate]
  | cons c t =>
    have digits := at_notMem_toDigits (b := 10) (by decide) (by decide) c.toNat
    simp [obfuscate, decimalReference, digits, at_notMem_obfuscateHex t]

theorem at_notMem_obfuscateHex (t : Text) : '@' ∉ obfuscateHex t := by
  cases t with
  | nil => simp [obfuscateHex]
  | cons c t =>
    have digits := at_notMem_toDigits (b := 16) (by decide) (by decide) c.toNat
    simp [obfuscateHex, hexReference, digits, at_notMem_obfuscate t]

end

end Mail

end CommentMarkup

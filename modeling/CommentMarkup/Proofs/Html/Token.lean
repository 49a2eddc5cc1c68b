import CommentMarkup.Html.Node
import CommentMarkup.Proofs.Text.Ascii
import Mathlib

/-!
# Reading markup back

`tokens?` reads the tags of a page from its text alone. Every angle bracket must belong to a tag, and
an attribute's value goes up to the next quote. `tokens_writeNodes` says that written nodes are read
back as the tags that they stand for; whatever text they hold adds none and changes none.
-/

namespace CommentMarkup.Html

def isAngle (c : Char) : Bool := c == '<' || c == '>'

abbrev Setting := Text × Option Text

inductive Token
  | opening (name : Text) (settings : List Setting)
  | closing (name : Text)
  /-- A tag that closes itself. -/
  | void (name : Text) (settings : List Setting)
  deriving DecidableEq, Repr

/-! ### Reading -/

/-- The value that follows an attribute's name, if it has one, and its length in the tag. -/
def value? : Text → Option (Option Text × Nat)
  | '=' :: '"' :: rest =>
    let value := rest.takeWhile (· != '"')
    if value.length < rest.length then some (some value, value.length + 3) else none
  | _ => some (none, 0)

/-- The attributes in a tag after its name, and whether the tag closes itself. -/
def settings? : Text → Option (List Setting × Bool)
  | [] => some ([], false)
  | [' ', '/'] => some ([], true)
  | ' ' :: cs =>
    let name := cs.takeWhile Char.isAlpha
    if name.isEmpty then none
    else
      match value? (cs.drop name.length) with
      | none => none
      | some (value, n) =>
        (settings? (cs.drop (name.length + n))).map fun (others, closed) =>
          ((name, value) :: others, closed)
  | _ => none
termination_by t => t.length
decreasing_by simp only [List.length_cons, List.length_drop]; omega

def Token.ofBody? : Text → Option Token
  | '/' :: name => if !name.isEmpty && name.all Char.isAlphanum then some (.closing name) else none
  | body =>
    let name := body.takeWhile Char.isAlphanum
    if name.isEmpty then none
    else
      (settings? (body.drop name.length)).map fun (settings, closed) =>
        if closed then .void name settings else .opening name settings

/-- The tags of a page in their order; nothing if an angle bracket belongs to no tag. -/
def tokens? : Text → Option (List Token)
  | [] => some []
  | c :: cs =>
    if c = '<' then
      let body := cs.takeWhile fun c => !isAngle c
      if Text.startsWith (· == '>') (cs.drop body.length) then
        match Token.ofBody? body with
        | none => none
        | some token => (tokens? (cs.drop (body.length + 1))).map (token :: ·)
      else none
    else if c = '>' then none
    else tokens? cs
termination_by t => t.length
decreasing_by all_goals simp only [List.length_cons, List.length_drop]; omega

/-- The tags nest within the open elements: each closing tag has the name of the element that was
opened last, and in the end none is open. -/
def nests : List Text → List Token → Bool
  | names, [] => names.isEmpty
  | names, .opening name _ :: rest => nests (name :: names) rest
  | names, .void _ _ :: rest => nests names rest
  | name :: names, .closing closed :: rest => closed == name && nests names rest
  | [], .closing _ :: _ => false

/-! ### Characters -/

def isInert (c : Char) : Bool := c != '"' && !isAngle c

theorem isInert_of_isAlphanum {c : Char} (h : c.isAlphanum) : isInert c := by
  have apart {d : Char} (mark : ¬ d.isAlphanum) : c ≠ d := by
    rintro rfl
    exact mark h
  simp [isInert, isAngle, apart (d := '"') (by decide), apart (d := '<') (by decide),
    apart (d := '>') (by decide)]

theorem not_isAngle_of_isAlphanum {c : Char} (h : c.isAlphanum) : !isAngle c := by
  have inert := isInert_of_isAlphanum h
  rw [isInert, Bool.and_eq_true] at inert
  exact inert.2

theorem calm_of_inert {t : Text} (inert : t.all isInert) : t.all fun c => !isAngle c := by
  rw [List.all_eq_true] at inert ⊢
  intro c member
  have here := inert c member
  rw [isInert, Bool.and_eq_true] at here
  exact here.2

theorem inert_of_alphanum {t : Text} (letters : t.all Char.isAlphanum) : t.all isInert :=
  List.all_eq_true.mpr fun c member =>
    isInert_of_isAlphanum (List.all_eq_true.mp letters c member)

theorem inert_of_alpha {t : Text} (letters : t.all Char.isAlpha) : t.all isInert :=
  List.all_eq_true.mpr fun c member =>
    isInert_of_isAlphanum (isAlphanum_of_isAlpha (List.all_eq_true.mp letters c member))

theorem escapeTextChar_calm (c : Char) : (escapeTextChar c).all fun d => !isAngle d := by
  unfold escapeTextChar
  split
  · decide
  · split
    · decide
    · split
      · decide
      · rename_i low high
        simp [isAngle, low, high]

theorem escapeText_calm (t : Text) : (escapeText t).all fun c => !isAngle c := by
  rw [escapeText, List.all_flatMap, List.all_eq_true]
  exact fun c _ => escapeTextChar_calm c

theorem escapeAttribute_inert (t : Text) : (escapeAttribute t).all isInert := by
  rw [escapeAttribute, List.all_flatMap, List.all_eq_true]
  intro c _
  unfold escapeAttributeChar escapeTextChar
  split
  · decide
  · split
    · decide
    · split
      · decide
      · split
        · decide
        · rename_i quote _ low high
          simp [isInert, isAngle, quote, low, high]

theorem decimalReference_inert (c : Char) : (decimalReference c).all isInert := by
  rw [decimalReference, List.all_append, List.all_append,
    inert_of_alphanum (toDigits_alphanum (by decide) (by decide) c.toNat)]
  decide

theorem hexReference_inert (c : Char) : (hexReference c).all isInert := by
  rw [hexReference, List.all_append, List.all_append,
    inert_of_alphanum (toDigits_alphanum (by decide) (by decide) c.toNat)]
  decide

mutual

theorem obfuscate_inert (t : Text) : (obfuscate t).all isInert := by
  cases t with
  | nil => rfl
  | cons c t => rw [obfuscate, List.all_append, decimalReference_inert, obfuscateHex_inert]; rfl

theorem obfuscateHex_inert (t : Text) : (obfuscateHex t).all isInert := by
  cases t with
  | nil => rfl
  | cons c t => rw [obfuscateHex, List.all_append, hexReference_inert, obfuscate_inert]; rfl

end

theorem Value.write_inert (value : Value) : value.write.all isInert := by
  cases value with
  | text t => exact escapeAttribute_inert t
  | obfuscated t => exact obfuscate_inert t

/-! ### Attributes -/

def Attribute.name : Attribute → Text
  | alt _ => "alt".toList
  | checked => "checked".toList
  | className _ => "class".toList
  | disabled => "disabled".toList
  | href _ => "href".toList
  | id _ => "id".toList
  | src _ => "src".toList
  | start _ => "start".toList
  | title _ => "title".toList
  | type _ => "type".toList

def Attribute.value? : Attribute → Option Value
  | alt t | className t | id t | src t | title t | type t => some (.text t)
  | start n => some (.text (Text.ofNat n))
  | href value => some value
  | checked | disabled => none

def Attribute.setting (a : Attribute) : Setting := (a.name, a.value?.map Value.write)

def writeValue : Option Text → Text
  | none => []
  | some value => "=\"".toList ++ value ++ ['"']

theorem Attribute.write_eq (a : Attribute) : a.write = a.name ++ writeValue a.setting.2 := by
  cases a <;> rfl

theorem Attribute.name_ne_nil (a : Attribute) : a.name ≠ [] := by
  cases a <;> exact List.cons_ne_nil _ _

theorem Attribute.name_alpha (a : Attribute) : a.name.all Char.isAlpha := by
  cases a <;> rfl

theorem Attribute.value_inert {a : Attribute} {value : Text} (has : a.setting.2 = some value) :
    value.all isInert := by
  obtain ⟨v, _, rfl⟩ := Option.map_eq_some_iff.mp has
  exact v.write_inert

theorem value_writeValue {value : Option Text} (inert : ∀ v, value = some v → v.all isInert)
    {rest : Text} (stop : rest = [] ∨ ∃ t, rest = ' ' :: t) :
    value? (writeValue value ++ rest) = some (value, (writeValue value).length) := by
  cases value with
  | none => rcases stop with rfl | ⟨t, rfl⟩ <;> rfl
  | some v =>
    have inner : ∀ c ∈ v, (c != '"') = true := by
      intro c member
      have here := List.all_eq_true.mp (inert v rfl) c member
      rw [isInert, Bool.and_eq_true] at here
      exact here.1
    have taken : (v ++ '"' :: rest).takeWhile (· != '"') = v := by
      rw [List.takeWhile_append_of_pos inner]
      simp
    have written : writeValue (some v) ++ rest = '=' :: '"' :: (v ++ '"' :: rest) := by
      simp [writeValue]
    rw [written, value?, taken, if_pos (by simp)]
    simp [writeValue]

/-- Written attributes are read back up to the end of the tag. -/
theorem settings_writeAttributes (attributes : List Attribute) {finish : Text} {closed : Bool}
    (stop : finish = [] ∨ ∃ t, finish = ' ' :: t) (read : settings? finish = some ([], closed)) :
    settings? (writeAttributes attributes ++ finish) =
      some (attributes.map Attribute.setting, closed) := by
  induction attributes with
  | nil => exact read
  | cons a attributes ih =>
    have next : writeAttributes attributes ++ finish = [] ∨
        ∃ t, writeAttributes attributes ++ finish = ' ' :: t := by
      cases attributes with
      | nil => exact stop
      | cons b attributes => exact .inr ⟨_, rfl⟩
    generalize after : writeAttributes attributes ++ finish = rest at ih next
    have written : writeAttributes (a :: attributes) ++ finish =
        ' ' :: (a.name ++ (writeValue a.setting.2 ++ rest)) := by
      rw [← after, writeAttributes, List.flatMap_cons, a.write_eq]
      simp [writeAttributes]
    have name : (a.name ++ (writeValue a.setting.2 ++ rest)).takeWhile Char.isAlpha = a.name := by
      rw [List.takeWhile_append_of_pos (List.all_eq_true.mp a.name_alpha)]
      have stops : (writeValue a.setting.2 ++ rest).takeWhile Char.isAlpha = [] := by
        cases a.setting.2 with
        | none => rcases next with rfl | ⟨t, rfl⟩ <;> rfl
        | some v => rfl
      rw [stops, List.append_nil]
    have value := value_writeValue (fun _ => a.value_inert) next
    rw [written, settings?]
    · rw [name]
      simp only [List.isEmpty_iff, a.name_ne_nil, if_false, List.drop_left, value,
        ← List.drop_drop, ih]
      rfl
    · intro slash
      rw [slash] at name
      exact a.name_ne_nil name.symm

theorem writeAttributes_calm (attributes : List Attribute) :
    (writeAttributes attributes).all fun c => !isAngle c := by
  rw [writeAttributes, List.all_flatMap, List.all_eq_true]
  intro a _
  rw [List.all_cons, a.write_eq, List.all_append, Bool.and_eq_true, Bool.and_eq_true]
  refine ⟨by decide, calm_of_inert (inert_of_alpha a.name_alpha), ?_⟩
  cases has : a.setting.2 with
  | none => rfl
  | some value =>
    have inner := calm_of_inert (a.value_inert has)
    rw [writeValue, List.all_append, List.all_append, inner]
    decide

/-! ### Tags -/

theorem writeNodes_append (a b : List Node) :
    writeNodes (a ++ b) = writeNodes a ++ writeNodes b := by
  induction a with
  | nil => rfl
  | cons node a ih => rw [List.cons_append, writeNodes, writeNodes, ih, List.append_assoc]

theorem writeNodes_singleton (node : Node) : writeNodes [node] = node.write := by
  rw [writeNodes, writeNodes, List.append_nil]

theorem Tag.name_ne_nil (tag : Tag) : tag.name ≠ [] := by
  cases tag <;> exact List.cons_ne_nil _ _

theorem Tag.name_alphanum (tag : Tag) : tag.name.all Char.isAlphanum := by
  cases tag with
  | heading level =>
    have written : (heading level).name = 'h' :: Text.ofNat level := rfl
    rw [written, List.all_cons, ofNat_alphanum, Bool.and_true]
    decide
  | _ => rfl

theorem VoidTag.name_ne_nil (tag : VoidTag) : tag.name ≠ [] := by
  cases tag <;> exact List.cons_ne_nil _ _

theorem VoidTag.name_alphanum (tag : VoidTag) : tag.name.all Char.isAlphanum := by
  cases tag <;> rfl

section Named

variable {name : Text} (filled : name ≠ []) (letters : name.all Char.isAlphanum)

include filled letters

theorem ofBody_closing : Token.ofBody? ('/' :: name) = some (.closing name) := by
  rw [Token.ofBody?, letters]
  simp [filled]

/-- A name with written attributes is read back as a tag of that name. -/
theorem ofBody_named (attributes : List Attribute) (finish : Text) {closed : Bool}
    (stop : finish = [] ∨ ∃ t, finish = ' ' :: t) (read : settings? finish = some ([], closed)) :
    Token.ofBody? (name ++ (writeAttributes attributes ++ finish)) =
      some (if closed then .void name (attributes.map Attribute.setting)
        else .opening name (attributes.map Attribute.setting)) := by
  have settings := settings_writeAttributes attributes stop read
  have next : (writeAttributes attributes ++ finish).takeWhile Char.isAlphanum = [] := by
    cases attributes with
    | nil => rcases stop with rfl | ⟨t, rfl⟩ <;> rfl
    | cons a attributes => rfl
  have taken : (name ++ (writeAttributes attributes ++ finish)).takeWhile Char.isAlphanum =
      name := by
    rw [List.takeWhile_append_of_pos (List.all_eq_true.mp letters), next, List.append_nil]
  rw [Token.ofBody?]
  · rw [taken]
    simp only [List.isEmpty_iff, filled, if_false, List.drop_left, settings]
    rfl
  · intro rest slash
    cases name with
    | nil => exact filled rfl
    | cons c name =>
      rw [(List.cons.inj slash).1] at letters
      exact absurd (List.all_eq_true.mp letters '/' List.mem_cons_self) (by decide)

end Named

/-! ### Written nodes -/

theorem tokens_calm {t : Text} (calm : t.all fun c => !isAngle c) (rest : Text) :
    tokens? (t ++ rest) = tokens? rest := by
  induction t with
  | nil => rfl
  | cons c t ih =>
    rw [List.all_cons, Bool.and_eq_true] at calm
    have apart {d : Char} (angle : isAngle d) : c ≠ d := by
      rintro rfl
      simp [angle] at calm
    rw [List.cons_append, tokens?, if_neg (apart (by decide)), if_neg (apart (by decide)),
      ih calm.2]

theorem tokens_tag {body : Text} {token : Token} (calm : body.all fun c => !isAngle c)
    (read : Token.ofBody? body = some token) (rest : Text) :
    tokens? ('<' :: (body ++ '>' :: rest)) = (tokens? rest).map (token :: ·) := by
  have taken : (body ++ '>' :: rest).takeWhile (fun c => !isAngle c) = body := by
    rw [List.takeWhile_append_of_pos (List.all_eq_true.mp calm)]
    simp [isAngle]
  rw [tokens?, if_pos rfl, taken]
  simp [Text.startsWith, read]

theorem tokens_openTag (tag : Tag) (attributes : List Attribute) (rest : Text) :
    tokens? (openTag tag attributes ++ rest) =
      (tokens? rest).map (.opening tag.name (attributes.map Attribute.setting) :: ·) := by
  have read := ofBody_named tag.name_ne_nil tag.name_alphanum attributes []
    (.inl rfl) settings?.eq_1
  rw [List.append_nil] at read
  have calm : (tag.name ++ writeAttributes attributes).all fun c => !isAngle c := by
    rw [List.all_append, calm_of_inert (inert_of_alphanum tag.name_alphanum),
      writeAttributes_calm]
    rfl
  simpa [openTag] using tokens_tag calm read rest

theorem tokens_voidTag (tag : VoidTag) (attributes : List Attribute) (rest : Text) :
    tokens? (voidTag tag attributes ++ rest) =
      (tokens? rest).map (.void tag.name (attributes.map Attribute.setting) :: ·) := by
  have read := ofBody_named tag.name_ne_nil tag.name_alphanum attributes
    [' ', '/'] (.inr ⟨_, rfl⟩) settings?.eq_2
  have calm : (tag.name ++ (writeAttributes attributes ++ [' ', '/'])).all fun c => !isAngle c := by
    rw [List.all_append, List.all_append, calm_of_inert (inert_of_alphanum tag.name_alphanum),
      writeAttributes_calm]
    decide
  simpa [voidTag] using tokens_tag calm read rest

theorem tokens_closeTag (tag : Tag) (rest : Text) :
    tokens? (closeTag tag ++ rest) = (tokens? rest).map (.closing tag.name :: ·) := by
  have read := ofBody_closing tag.name_ne_nil tag.name_alphanum
  have calm : ('/' :: tag.name).all fun c => !isAngle c := by
    rw [List.all_cons, calm_of_inert (inert_of_alphanum tag.name_alphanum)]
    decide
  simpa [closeTag] using tokens_tag calm read rest

mutual

def Node.tokens : Node → List Token
  | .text _ | .obfuscated _ | .verbatim _ => []
  | .element tag attributes children =>
    .opening tag.name (attributes.map Attribute.setting) ::
      (nodesTokens children ++ [.closing tag.name])
  | .void tag attributes => [.void tag.name (attributes.map Attribute.setting)]

def nodesTokens : List Node → List Token
  | [] => []
  | node :: nodes => node.tokens ++ nodesTokens nodes

end

mutual

/-- No text that is written as it stands holds an angle bracket. -/
def Node.isCalm : Node → Bool
  | .verbatim t => t.all fun c => !isAngle c
  | .element _ _ children => nodesCalm children
  | _ => true

def nodesCalm : List Node → Bool
  | [] => true
  | node :: nodes => node.isCalm && nodesCalm nodes

end

mutual

theorem Node.tokens_write {node : Node} (calm : node.isCalm) (rest : Text) :
    tokens? (node.write ++ rest) = (tokens? rest).map (node.tokens ++ ·) := by
  cases node with
  | text t => simpa [Node.write, Node.tokens] using tokens_calm (escapeText_calm t) rest
  | obfuscated t =>
    simpa [Node.write, Node.tokens] using tokens_calm (calm_of_inert (obfuscate_inert t)) rest
  | verbatim t => simpa [Node.write, Node.tokens] using tokens_calm calm rest
  | void tag attributes => exact tokens_voidTag tag attributes rest
  | element tag attributes children =>
    rw [Node.write, List.append_assoc, List.append_assoc, tokens_openTag, tokens_writeNodes calm,
      tokens_closeTag]
    simp [Node.tokens, Function.comp_def]

/-- Written nodes are read back as the tags that they stand for. -/
theorem tokens_writeNodes {nodes : List Node} (calm : nodesCalm nodes) (rest : Text) :
    tokens? (writeNodes nodes ++ rest) = (tokens? rest).map (nodesTokens nodes ++ ·) := by
  cases nodes with
  | nil => simp [writeNodes, nodesTokens]
  | cons node nodes =>
    rw [nodesCalm, Bool.and_eq_true] at calm
    rw [writeNodes, List.append_assoc, Node.tokens_write calm.1, tokens_writeNodes calm.2]
    simp [nodesTokens, Function.comp_def]

end

/-! ### Well-formed markup -/

mutual

/-- The tags of a node open and close what they open. -/
theorem nests_nodeTokens (node : Node) (names : List Text) (rest : List Token) :
    nests names (node.tokens ++ rest) = nests names rest := by
  cases node with
  | element tag attributes children =>
    rw [Node.tokens, List.cons_append, nests, List.append_assoc, nests_nodesTokens children]
    simp [nests]
  | _ => rfl

theorem nests_nodesTokens (nodes : List Node) (names : List Text) (rest : List Token) :
    nests names (nodesTokens nodes ++ rest) = nests names rest := by
  cases nodes with
  | nil => rfl
  | cons node nodes =>
    rw [nodesTokens, List.append_assoc, nests_nodeTokens node, nests_nodesTokens nodes]

end

/-- The attribute is one that pages are written with, and its value ends no tag. -/
def Setting.IsOwn (setting : Setting) : Prop :=
  (∃ a : Attribute, a.name = setting.1) ∧ ∀ value, setting.2 = some value → value.all isInert

def Token.IsOwn : Token → Prop
  | .opening name settings => (∃ tag : Tag, tag.name = name) ∧ ∀ s ∈ settings, Setting.IsOwn s
  | .closing name => ∃ tag : Tag, tag.name = name
  | .void name settings => (∃ tag : VoidTag, tag.name = name) ∧ ∀ s ∈ settings, Setting.IsOwn s

theorem settings_own {attributes : List Attribute} {s : Setting}
    (member : s ∈ attributes.map Attribute.setting) : Setting.IsOwn s := by
  obtain ⟨a, _, rfl⟩ := List.mem_map.mp member
  exact ⟨⟨a, rfl⟩, fun _ has => a.value_inert has⟩

mutual

theorem Node.tokens_own {node : Node} {token : Token} (member : token ∈ node.tokens) :
    token.IsOwn := by
  cases node with
  | element tag attributes children =>
    rw [Node.tokens, List.mem_cons, List.mem_append, List.mem_singleton] at member
    rcases member with rfl | inside | rfl
    · exact ⟨⟨tag, rfl⟩, fun _ => settings_own⟩
    · exact nodesTokens_own inside
    · exact ⟨tag, rfl⟩
  | void tag attributes =>
    cases List.mem_singleton.mp member
    exact ⟨⟨tag, rfl⟩, fun _ => settings_own⟩
  | _ => cases member

theorem nodesTokens_own {nodes : List Node} {token : Token} (member : token ∈ nodesTokens nodes) :
    token.IsOwn := by
  cases nodes with
  | nil => cases member
  | cons node nodes =>
    rw [nodesTokens, List.mem_append] at member
    exact member.elim Node.tokens_own nodesTokens_own

end

/-- Every angle bracket belongs to a tag, the tags are those that pages are written with, and they
nest. -/
def WellFormed (t : Text) : Prop :=
  ∃ tokens, tokens? t = some tokens ∧ (∀ token ∈ tokens, token.IsOwn) ∧ nests [] tokens

theorem writeNodes_wellFormed {nodes : List Node} (calm : nodesCalm nodes) :
    WellFormed (writeNodes nodes) := by
  have read := tokens_writeNodes calm []
  have balanced := nests_nodesTokens nodes [] []
  rw [List.append_nil] at read balanced
  rw [tokens?, Option.map_some, List.append_nil] at read
  exact ⟨_, read, fun _ => nodesTokens_own, balanced⟩

end CommentMarkup.Html

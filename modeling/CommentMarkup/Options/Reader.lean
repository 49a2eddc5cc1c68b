import CommentMarkup.Json
import CommentMarkup.Options

/-!
# Reading options

Options are written as an object with the members `marker`, `emphasis` and `fence`, or as an array
of their values in this order. What is missing keeps its default.
-/

namespace CommentMarkup.Options

def text? : Json → Option Text
  | .string t => t
  | _ => none

def modeNamed? (name : Text) : Option EmphasisMode :=
  [EmphasisMode.wordInternalLiteral, .classic].find? fun mode => mode.name == name

/-- A mode: its name, or an object with the name as its only member and null for the value. -/
def mode? : Json → Option EmphasisMode
  | .string (some name) => modeNamed? name
  | .object [(some name, .null)] => modeNamed? name
  | _ => none

/-- The members that are options; their order is that of the values in an array. -/
inductive Member
  | marker
  | emphasis
  | fence
  deriving DecidableEq, Repr

def Member.named? (name : Text) : Option Member :=
  if name = "marker".toList then some marker
  else if name = "emphasis".toList then some emphasis
  else if name = "fence".toList then some fence
  else none

def set? (options : Options) (member : Member) (value : Json) : Option Options :=
  match member with
  | .marker => (text? value).map fun t => { options with marker := t }
  | .emphasis => (mode? value).map fun m => { options with emphasis := m }
  | .fence => (text? value).map fun t => { options with fence := t }

/-- The options with those in the members of an object set. Other members are passed over; no option
may stand in it twice. -/
def setMembers? (options : Options) (seen : List Member) :
    List (Option Text × Json) → Option Options
  | [] => some options
  | (none, _) :: _ => none
  | (some name, value) :: members =>
    match Member.named? name with
    | none => setMembers? options seen members
    | some member =>
      if member ∈ seen then none
      else
        (options.set? member value).bind fun options =>
          setMembers? options (member :: seen) members

/-- The options with those in an array set, in the order of `members`. -/
def setValues? (options : Options) : List Member → List Json → Option Options
  | _, [] => some options
  | [], _ :: _ => none
  | member :: members, value :: values =>
    (options.set? member value).bind fun options => setValues? options members values

def ofJson? : Json → Option Options
  | .object members => setMembers? .default [] members
  | .array values => setValues? .default [.marker, .emphasis, .fence] values
  | _ => none

def ofText? (t : Text) : Option Options := (Json.ofText? t).bind ofJson?

end CommentMarkup.Options

import Strongbox.Encoding.Hex
import Strongbox.Text.Digit

/-!
# Templates of paths

A template is text with parameters in braces. A parameter has a name and, after a colon, the kind of text that
it stands for. Braces around anything else are text like any other.
-/

namespace Strongbox.Http

inductive Parameter where
  | segment
  | line
  | integer
  | decimal
  | identifier
  deriving DecidableEq, Repr

namespace Parameter

def ofName? (name : Text) : Option Parameter :=
  [("str", segment), ("path", line), ("int", integer), ("float", decimal), ("uuid", identifier)].findSome?
    fun (known, kind) => if Text.ofString known = name then some kind else none

def isDigits (t : Text) : Bool := !t.isEmpty && t.all Text.isDigit

def identifierGroups : List Nat := [8, 4, 4, 4, 12]

/-- Does the text consist of groups of hexadecimal digits, each perhaps with a dash ahead but the first? -/
def isGrouped : (groups : List Nat) → Text → Bool
  | [], t => t.isEmpty
  | n :: more, t =>
    let group := t.take n
    let rest := t.drop n
    group.length == n && group.all (fun c => (Hex.digit? c).isSome) &&
      isGrouped more (if more.isEmpty then rest else match rest with
        | 45 :: tail => tail
        | _ => rest)

def admits : Parameter → Text → Bool
  | segment, t => !t.isEmpty && t.all (· != 47)
  | line, t => t.all (· != 10)
  | integer, t => isDigits t
  | decimal, t =>
    match Text.cutFirst? 46 t with
    | some (whole, part) => isDigits whole && isDigits part
    | none => isDigits t
  | identifier, t => isGrouped identifierGroups t

/-- Can what a parameter stands for be read as what it is? An integer can be too long. -/
def reads : Parameter → Text → Bool
  | integer, t => t.length ≤ Text.digitLimit
  | _, _ => true

end Parameter

inductive Piece where
  | text (t : Text)
  | parameter (name : Text) (kind : Parameter)
  deriving DecidableEq, Repr

abbrev Template := List Piece

inductive TemplateError where
  | unknownKind
  | repeatedName
  deriving DecidableEq, Repr

namespace Template

def isNameStart (c : CodePoint) : Bool := (65 ≤ c && c ≤ 90) || (97 ≤ c && c ≤ 122) || c == 95

def isName : Text → Bool
  | [] => false
  | c :: rest => isNameStart c && rest.all fun c => isNameStart c || Text.isDigit c

def readParameter? (inside : Text) : Option (Text × Option Text) :=
  match Text.splitBy (· == 58) inside with
  | [name] => if isName name then some (name, none) else none
  | [name, kind] => if isName name && isName kind then some (name, some kind) else none
  | _ => none

def afterBrace (stretch : Text) : Except TemplateError (List Piece) :=
  let asText := .ok [.text (123 :: stretch)]
  match Text.cutFirst? 125 stretch with
  | none => asText
  | some (inside, rest) =>
    match readParameter? inside with
    | none => asText
    | some (name, none) => .ok [.parameter name .segment, .text rest]
    | some (name, some kind) =>
      match Parameter.ofName? kind with
      | none => .error .unknownKind
      | some kind => .ok [.parameter name kind, .text rest]

def names (pieces : Template) : List Text :=
  pieces.filterMap fun piece => match piece with
    | .text _ => none
    | .parameter name _ => some name

def ofText (t : Text) : Except TemplateError Template :=
  match Text.splitBy (· == 123) t with
  | [] => .ok []
  | first :: stretches => do
    let pieces ← stretches.mapM afterBrace
    let template := .text first :: pieces.flatten
    if (names template).Nodup then .ok template else .error .repeatedName

/-- What the parameters stand for where the pieces make up the path, which may have a line feed at its end. Each
stands for as much as it can. -/
def values? : Template → (path : Text) → Option (List (Parameter × Text))
  | [], path => if path = [] ∨ path = [10] then some [] else none
  | .text t :: more, path => (Text.dropLead? t path).bind (values? more)
  | .parameter _ kind :: more, path =>
    (List.range (path.length + 1)).reverse.findSome? fun n =>
      if kind.admits (path.take n) then (values? more (path.drop n)).map ((kind, path.take n) :: ·) else none

inductive Fit where
  | apart
  | fits
  /-- The path is like the template, but one of the values cannot be read. -/
  | unreadable
  deriving DecidableEq, Repr

def fit (template : Template) (path : Text) : Fit :=
  match template.values? path with
  | none => .apart
  | some values => if values.all fun (kind, value) => kind.reads value then .fits else .unreadable

/-- Text has no values to give, and stands for itself. -/
theorem values?_text (t path : Text) :
    values? [.text t] path = if path = t ∨ path = t ++ [10] then some [] else none := by
  induction t generalizing path with
  | nil => simp [values?, Text.dropLead?]
  | cons a t ih =>
    cases path with
    | nil => simp [values?, Text.dropLead?]
    | cons b path =>
      simp only [values?, Text.dropLead?] at ih ⊢
      by_cases h : a = b
      · simp [h, ih path]
      · simp [h, Ne.symm h]

/-- Without parameters, only the text goes with its template, or the text and a line feed. -/
theorem fit_text (t path : Text) :
    fit [.text t] path = if path = t ∨ path = t ++ [10] then .fits else .apart := by
  simp only [fit, values?_text]
  split <;> simp_all

end Template

end Strongbox.Http

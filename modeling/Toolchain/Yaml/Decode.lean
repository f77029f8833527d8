import Toolchain.Number.Basic
import Toolchain.Number.Word
import Toolchain.Time.Duration
import Toolchain.Yaml.Atom
import Toolchain.Yaml.Node

namespace Toolchain.Yaml

namespace Node

def atom? : Node → Option Atom
  | .scalar text true => some (.ofText text)
  | .scalar text false => some (.text text)
  | _ => none

def isNull (n : Node) : Bool := n.atom? = some .null

def text? : Node → Option String
  | .scalar text _ => some text
  | _ => none

def word? (n : Node) : Option Int64 :=
  match n.atom? with
  | some (.int i) => if i < wordBound then some (.ofInt i) else none
  | some (.float x) => if x.le (.ofNat wordBound) then some x.toWord else none
  | _ => none

def word32? (n : Node) : Option Nat :=
  let fits := fun (i : Int) => if 0 ≤ i && i < twoTo 32 then some i.toNat else none
  match n.atom? with
  | some (.int i) => fits i
  | some (.float x) => x.truncate?.bind fits
  | _ => none

def double? (n : Node) : Option Double :=
  match n.atom? with
  | some (.int i) => some (.ofInt i)
  | some (.float x) => some x
  | _ => none

def yesWords : List String := ["y", "Y", "yes", "Yes", "YES", "on", "On", "ON"]

def noWords : List String := ["n", "N", "no", "No", "NO", "off", "Off", "OFF"]

def bool? (n : Node) : Option Bool :=
  match n.atom? with
  | some (.bool b) => some b
  | some (.text s) => if s ∈ yesWords then some true else if s ∈ noWords then some false else none
  | _ => none

def duration? (n : Node) : Option Duration :=
  match n.atom? with
  | some (.text s) => Duration.read? s
  | _ => none

def items? : Node → Option (List Node)
  | .seq xs => some (xs.filter fun x => !x.isNull)
  | n => if n.isNull then some [] else none

def list? {α : Type} (read : Node → Option α) (n : Node) : Option (List α) :=
  n.items?.bind (·.mapM read)

def isMerge : Node → Bool
  | .scalar text plain => plain && text = "<<"
  | _ => false

/-- The fields that stand in a mapping itself. A key that occurs twice or is no scalar is refused,
and one that is null is passed over. -/
def ownFields? (ps : List (Node × Node)) : Option (List (String × Node)) :=
  match ps.mapM fun (k, _) => k.text? with
  | none => none
  | some names =>
      if names.eraseDups.length = names.length then
        some ((ps.filter fun (k, _) => !k.isNull && !k.isMerge).filterMap fun (k, v) =>
          k.text?.map fun name => (name, v))
      else none

def isMap : Node → Bool
  | .map _ => true
  | _ => false

def append? {α : Type} : Option (List α) → Option (List α) → Option (List α)
  | some xs, some ys => some (xs ++ ys)
  | _, _ => none

mutual
def merged? : Node → Option (List (String × Node))
  | .map ps => append? (ownFields? ps) (mergedIn? ps)
  | .seq xs => mergedAll? xs
  | .scalar _ _ => none
def mergedIn? : List (Node × Node) → Option (List (String × Node))
  | [] => some []
  | (k, v) :: ps => if k.isMerge then merged? v else mergedIn? ps
def mergedAll? : List Node → Option (List (String × Node))
  | [] => some []
  | x :: xs => if x.isMap then append? (merged? x) (mergedAll? xs) else none
end

def fields? (n : Node) : Option (List (String × Node)) :=
  if n.isNull then some [] else if n.isMap then n.merged? else none

end Node

def field? {α : Type} (fields : List (String × Node)) (name : String) (read : Node → Option α)
    (zero : α) : Option α :=
  match fields.lookup name with
  | some n => if n.isNull then some zero else read n
  | none => some zero

end Toolchain.Yaml

import Toolchain.Yaml.Decode

namespace Toolchain.Yaml

/-- What a document is read as: scalars, sequences, mappings with fields of known names, or anything
at all. A mapping of the last kind is a dictionary, and if it is free its keys may be more than
texts. -/
inductive Shape where
  | any
  | scalar
  | list (item : Shape)
  | record (fields : List (String × Shape))
  | dict (free : Bool)
  deriving Repr

inductive Halt where
  | refused
  | stuck
  deriving DecidableEq, Repr

def Halt.stuckMessage : String := "a key beside a merge is no scalar"

namespace Node

/-- Two keys of a mapping are the same if they are so alike; all sequences are, and all mappings. -/
def likeness : Node → Nat × String
  | .scalar text _ => (0, text)
  | .seq _ => (1, "")
  | .map _ => (2, "")

def repeats (ps : List (Node × Node)) : Bool :=
  let ks := ps.map fun (k, _) => k.likeness
  ks.eraseDups.length != ks.length

def isReadable : Node → Bool
  | .map ps => !repeats ps
  | _ => true

def isTextual (k : Node) : Bool :=
  match k.atom? with
  | some (.text _) => true
  | _ => false

end Node

namespace Shape

def item? : Shape → Option Shape
  | .any => some .any
  | .list item => some item
  | _ => none

def entries? (ps : List (Node × Node)) : Shape → Option Shape
  | .any => some (.dict !(ps.all fun (k, _) => k.isTextual))
  | .record fs => some (.record fs)
  | .dict free => some (.dict free)
  | _ => none

def isFree : Shape → Bool
  | .dict free => free
  | _ => false

def key? (s : Shape) (k : Node) : Option Atom :=
  if s.isFree then k.atom? else if k.isNull then none else k.text?.map .text

def value? (s : Shape) (key : Atom) : Option Shape :=
  match s, key with
  | .record fs, .text name => fs.lookup name
  | .dict _, _ => some .any
  | _, _ => none

mutual
def walk (s : Shape) (taken : Option (List Atom)) : Node → Except Halt (Option (List Atom))
  | .scalar _ _ => .ok taken
  | .seq xs =>
      match s.item? with
      | some item => walkItems item taken xs
      | none => .ok taken
  | .map ps =>
      match s.entries? ps with
      | none => .ok taken
      | some s =>
          if Node.repeats ps then .ok taken
          else do
            let taken ← walkPairs s taken ps
            if ps.any fun (k, _) => k.isMerge then
              match taken with
              | some keys => return some (← mergeIn s keys ps)
              | none =>
                  let _ ← mergeIn s (← keysOf [] ps) ps
                  return none
            else return taken
def walkItems (s : Shape) (taken : Option (List Atom)) :
    List Node → Except Halt (Option (List Atom))
  | [] => .ok taken
  | x :: xs => do walkItems s (← walk s taken x) xs
def walkPairs (s : Shape) (taken : Option (List Atom)) :
    List (Node × Node) → Except Halt (Option (List Atom))
  | [] => .ok taken
  | (k, v) :: ps =>
      if k.isMerge then walkPairs s taken ps
      else
        match s.key? k with
        | some key =>
            if (taken.getD []).contains key then walkPairs s taken ps
            else do
              if let some t := s.value? key then
                let _ ← walk t none v
              walkPairs s (taken.map (key :: ·)) ps
        | none => do
            if s.isFree then
              let _ ← walk .any none k
              if k.isReadable then throw (if taken.isSome then .stuck else .refused)
            walkPairs s taken ps
def keysOf (keys : List Atom) : List (Node × Node) → Except Halt (List Atom)
  | [] => .ok keys
  | (k, _) :: ps =>
      match k.atom? with
      | some key => keysOf (key :: keys) ps
      | none => do
          let taken ← walk .any (some keys) k
          if k.isReadable then throw .stuck
          keysOf (taken.getD keys) ps
def mergeIn (s : Shape) (keys : List Atom) : List (Node × Node) → Except Halt (List Atom)
  | [] => .ok keys
  | (k, v) :: ps => if k.isMerge then merge s keys v else mergeIn s keys ps
def merge (s : Shape) (keys : List Atom) : Node → Except Halt (List Atom)
  | .scalar _ _ => .error .refused
  | .seq xs => mergeAll s keys xs
  | .map ps =>
      if Node.repeats ps then .ok keys
      else do mergeIn s ((← walkPairs s (some keys) ps).getD keys) ps
def mergeAll (s : Shape) (keys : List Atom) : List Node → Except Halt (List Atom)
  | [] => .ok keys
  | x :: xs => if x.isMap then do mergeAll s (← merge s keys x) xs else .error .refused
end

def halt? (s : Shape) (n : Node) : Option Halt :=
  match s.walk none n with
  | .ok _ => none
  | .error h => some h

end Shape

end Toolchain.Yaml

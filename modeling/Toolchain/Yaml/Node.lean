import Toolchain.Yaml.Token

namespace Toolchain.Yaml

inductive Node where
  | scalar (text : String) (plain : Bool)
  | seq (items : List Node)
  | map (pairs : List (Node × Node))
  deriving Repr

abbrev Parse := StateT Reader Option

namespace Node

def empty : Node := .scalar "" true

def next : Parse Token := Reader.peek

def advance : Parse Unit := modify Reader.advance

def lost : Parse Node := advance *> pure empty

mutual
def node (block indentless : Bool) : (fuel : Nat) → Parse Node
  | 0 => failure
  | n + 1 => do
      match ← next with
      | .scalar text plain => advance; return .scalar text plain
      | .flowSequence => advance; return .seq (← flowItems true n)
      | .flowMapping => advance; return .map (← flowPairs true n)
      | .blockSequence => if block then advance; return .seq (← blockItems n) else failure
      | .blockMapping => if block then advance; return .map (← blockPairs n) else failure
      | .item => if indentless then return .seq (← bareItems n) else failure
      | _ => failure
def orEmpty (stops : List Token) (block indentless : Bool) : (fuel : Nat) → Parse Node
  | 0 => failure
  | n + 1 => do if (← next) ∈ stops then return empty else node block indentless n
def blockItems : (fuel : Nat) → Parse (List Node)
  | 0 => failure
  | n + 1 => do
      match ← next with
      | .blockEnd => advance; return []
      | .item =>
          advance
          let x ← orEmpty [.item, .blockEnd] true false n
          return x :: (← blockItems n)
      | _ => failure
def bareItems : (fuel : Nat) → Parse (List Node)
  | 0 => failure
  | n + 1 => do
      match ← next with
      | .item =>
          advance
          let x ← orEmpty [.item, .key, .value, .blockEnd] true false n
          return x :: (← bareItems n)
      | _ => return []
def blockPairs : (fuel : Nat) → Parse (List (Node × Node))
  | 0 => failure
  | n + 1 => do
      match ← next with
      | .blockEnd => advance; return []
      | .key =>
          advance
          let k ← orEmpty [.key, .value, .blockEnd] true true n
          let v ← valueOf [.key, .value, .blockEnd] true n
          return (k, v) :: (← blockPairs n)
      | _ => failure
def valueOf (stops : List Token) (block : Bool) : (fuel : Nat) → Parse Node
  | 0 => failure
  | n + 1 => do
      match ← next with
      | .value => advance; orEmpty stops block block n
      | _ => return empty
def flowItems (first : Bool) : (fuel : Nat) → Parse (List Node)
  | 0 => failure
  | n + 1 => do
      match first, ← next with
      | _, .flowSequenceEnd => advance; return []
      | true, _ => flowItem n
      | false, .comma =>
          advance
          match ← next with
          | .flowSequenceEnd => advance; return []
          | _ => flowItem n
      | _, _ => failure
def flowItem : (fuel : Nat) → Parse (List Node)
  | 0 => failure
  | n + 1 => do
      match ← next with
      | .key =>
          advance
          let k ← if (← next) ∈ [Token.value, .comma, .flowSequenceEnd] then lost
            else node false false n
          let v ← valueOf [.comma, .flowSequenceEnd] false n
          return .map [(k, v)] :: (← flowItems false n)
      | _ =>
          let x ← node false false n
          return x :: (← flowItems false n)
def flowPairs (first : Bool) : (fuel : Nat) → Parse (List (Node × Node))
  | 0 => failure
  | n + 1 => do
      match first, ← next with
      | _, .flowMappingEnd => advance; return []
      | true, _ => flowPair n
      | false, .comma =>
          advance
          match ← next with
          | .flowMappingEnd => advance; return []
          | _ => flowPair n
      | _, _ => failure
def flowPair : (fuel : Nat) → Parse (List (Node × Node))
  | 0 => failure
  | n + 1 => do
      match ← next with
      | .key =>
          advance
          let k ← orEmpty [.value, .comma, .flowMappingEnd] false false n
          let v ← valueOf [.comma, .flowMappingEnd] false n
          return (k, v) :: (← flowPairs false n)
      | _ =>
          let k ← node false false n
          return (k, empty) :: (← flowPairs false n)
end

def document (fuel : Nat) : Parse Node := do
  let _ ← next
  advance
  match ← next with
  | .streamEnd => return empty
  | .documentStart =>
      advance
      let root ← orEmpty [.documentStart, .documentEnd, .streamEnd] true false fuel
      let _ ← next
      return root
  | _ =>
      let root ← node true false fuel
      let _ ← next
      return root

/-- Every step of the search takes a token within a few rounds, and no character makes more than
four tokens. -/
def parse? (s : String) : Option Node :=
  ((document (16 * s.length + 64)).run (.ofText s)).map (·.1)

end Node

end Toolchain.Yaml

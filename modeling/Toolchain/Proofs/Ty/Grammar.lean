import Mathlib.Data.List.Chain
import Toolchain.Ty.Basic
import Toolchain.Ty.Token

namespace Toolchain.Ty

open Text

def marks : List Char := ['(', ')', '<', '>', ',', '|']

inductive Written : Token → List Char → Prop
  | mark {c : Char} : c ∈ marks → Written (.mark c) [c]
  | arrow : Written .arrow ['-', '>']
  | name {c : Char} {cs : List Char} : isNameStart c = true → (∀ d ∈ cs, isNameChar d = true) →
      Written (.name (String.ofList (c :: cs))) (c :: cs)
  | quoted {cs : List Char} : cs ≠ [] → (∀ d ∈ cs, isNameChar d = true) →
      Written (.variable (String.ofList cs)) ('\'' :: cs)

def Token.text : Token → List Char
  | .mark c => [c]
  | .arrow => ['-', '>']
  | .name s => s.toList
  | .variable s => '\'' :: s.toList

def Halts (rest : List Char) : Prop := ∀ c ∈ rest.head?, isNameChar c = false

/-- The tokens of a text, with blanks anywhere between them. A name takes in every character that
may belong to it; nothing of the kind is asked of a variable. -/
inductive Spelled : List Char → List Token → Prop
  | done {ws : List Char} : (∀ c ∈ ws, isBlank c = true) → Spelled ws []
  | more {ws cs rest : List Char} {token : Token} {tokens : List Token} :
      (∀ c ∈ ws, isBlank c = true) → Written token cs → (∀ s, token = .name s → Halts rest) →
      Spelled rest tokens → Spelled (ws ++ cs ++ rest) (token :: tokens)

inductive Applied : String → List Ty → Ty → Prop
  | primitive {n : String} : n ∈ primitives → Applied n [] (.con n)
  | self : Applied selfName [] (.var selfName)
  | unary (c : Unary) {t : Ty} : Applied c.name [t] (.unary c t)
  | binary (c : Binary) {t u : Ty} : Applied c.name [t, u] (.binary c t u)
  | generic {n : String} {args : List Ty} : n ∉ primitives → n ≠ selfName →
      (∀ c : Unary, n ≠ c.name) → (∀ c : Binary, n ≠ c.name) → Applied n args (.generic n args)

inductive Phrase where
  | union
  | alternatives
  | plain
  | arrow
  | list
  | items
  deriving DecidableEq

/-- A union, a member of it and an arrow have one type; the other phrases have a list of types. Only
the last of several alternatives may be an arrow. -/
inductive Derives : Phrase → List Token → List Ty → Prop
  | single {ts : List Token} {t : Ty} : Derives .alternatives ts [t] → Derives .union ts [t]
  | sum {ts : List Token} {t u : Ty} {us : List Ty} :
      Derives .alternatives ts (t :: u :: us) → Derives .union ts [.sum (t :: u :: us)]
  | lastPlain {ts : List Token} {t : Ty} : Derives .plain ts [t] → Derives .alternatives ts [t]
  | lastArrow {ts : List Token} {t : Ty} : Derives .arrow ts [t] → Derives .alternatives ts [t]
  | alternative {ts us : List Token} {t : Ty} {tys : List Ty} : Derives .plain ts [t] →
      Derives .alternatives us tys → Derives .alternatives (ts ++ .mark '|' :: us) (t :: tys)
  | product {ts : List Token} {tys : List Ty} : Derives .list ts tys →
      Derives .plain (.mark '(' :: ts ++ [.mark ')']) [.product tys]
  | quoted {s : String} : s ≠ "" → Derives .plain [.variable s] [.var s]
  | tuple {ts : List Token} {tys : List Ty} : Derives .list ts tys →
      Derives .plain (.name tupleName :: .mark '(' :: ts ++ [.mark ')']) [.tuple tys]
  | name {n : String} {t : Ty} : Applied n [] t → Derives .plain [.name n] [t]
  | applied {n : String} {ts : List Token} {tys : List Ty} {t : Ty} : Derives .list ts tys →
      Applied n tys t → Derives .plain (.name n :: .mark '<' :: ts ++ [.mark '>']) [t]
  | function {ts us : List Token} {tys : List Ty} {r : Ty} : Derives .list ts tys →
      Derives .union us [r] →
      Derives .arrow (.mark '(' :: ts ++ .mark ')' :: .arrow :: us) [.func tys r]
  | empty : Derives .list [] []
  | filled {ts : List Token} {tys : List Ty} : Derives .items ts tys → Derives .list ts tys
  | item {ts : List Token} {t : Ty} : Derives .union ts [t] → Derives .items ts [t]
  | comma {ts us : List Token} {t : Ty} {tys : List Ty} : Derives .union ts [t] →
      Derives .items us tys → Derives .items (ts ++ .mark ',' :: us) (t :: tys)

def Denotes (src : String) (t : Ty) : Prop :=
  ∃ tokens, Spelled src.toList tokens ∧ Derives .union tokens [t]

def Token.Proper : Token → Prop
  | .mark c => c ∈ marks
  | .variable s => s ≠ ""
  | .arrow | .name _ => True

def Token.Opens : Token → Prop
  | .mark c => c = '('
  | .arrow => False
  | .name _ | .variable _ => True

def Token.Apart (a b : Token) : Prop := ∀ s n, ¬ (a = .variable s ∧ b = .name n)

variable {p : Phrase} {ts us : List Token} {tys : List Ty} {c : Char}

theorem Derives.proper (h : Derives p ts tys) : ∀ token ∈ ts, token.Proper := by
  induction h with
  | single _ ih | sum _ ih | lastPlain _ ih | lastArrow _ ih | filled _ ih | item _ ih => exact ih
  | alternative _ _ ih ih' | comma _ _ ih ih' =>
      simp only [List.forall_mem_append, List.forall_mem_cons]
      exact ⟨ih, by simp [Token.Proper, marks], ih'⟩
  | product _ ih =>
      simp only [List.forall_mem_append, List.forall_mem_cons]
      exact ⟨⟨by simp [Token.Proper, marks], ih⟩, by simp [Token.Proper, marks]⟩
  | quoted hs => simpa [Token.Proper] using hs
  | tuple _ ih | applied _ _ ih =>
      simp only [List.forall_mem_append, List.forall_mem_cons]
      exact ⟨⟨trivial, by simp [Token.Proper, marks], ih⟩, by simp [Token.Proper, marks]⟩
  | name _ => simp [Token.Proper]
  | function _ _ ih ih' =>
      simp only [List.forall_mem_append, List.forall_mem_cons]
      exact ⟨⟨by simp [Token.Proper, marks], ih⟩, by simp [Token.Proper, marks], trivial, ih'⟩
  | empty => simp

theorem Derives.opens (h : Derives p ts tys) (hp : p ≠ .list) :
    ∃ token rest, ts = token :: rest ∧ token.Opens := by
  induction h with
  | single _ ih | sum _ ih | lastPlain _ ih | lastArrow _ ih | item _ ih => exact ih (by simp)
  | alternative _ _ ih _ | comma _ _ ih _ =>
      obtain ⟨token, rest, rfl, ho⟩ := ih (by simp)
      exact ⟨token, _, List.cons_append .., ho⟩
  | product _ _ => exact ⟨_, _, rfl, rfl⟩
  | quoted _ => exact ⟨_, _, rfl, trivial⟩
  | tuple _ _ => exact ⟨_, _, rfl, trivial⟩
  | name _ => exact ⟨_, _, rfl, trivial⟩
  | applied _ _ _ => exact ⟨_, _, rfl, trivial⟩
  | function _ _ _ _ => exact ⟨_, _, rfl, rfl⟩
  | empty | filled _ _ => exact absurd rfl hp

theorem Token.apart_mark (a : Token) (c : Char) : a.Apart (.mark c) := by
  simp [Token.Apart]

theorem Token.mark_apart (c : Char) (b : Token) : (Token.mark c).Apart b := by
  simp [Token.Apart]

theorem isChain_mark (h : ts.IsChain Token.Apart) (h' : us.IsChain Token.Apart) :
    (ts ++ .mark c :: us).IsChain Token.Apart := by
  refine h.append (h'.cons fun b _ => Token.mark_apart c b) ?_
  intro a _ b hb
  obtain rfl := Option.some.inj hb
  exact Token.apart_mark a c

theorem isChain_cons_of_apart {a : Token} (ha : ∀ b, a.Apart b) (h : ts.IsChain Token.Apart) :
    (a :: ts).IsChain Token.Apart := h.cons fun b _ => ha b

theorem Derives.isChain (h : Derives p ts tys) : ts.IsChain Token.Apart := by
  induction h with
  | single _ ih | sum _ ih | lastPlain _ ih | lastArrow _ ih | filled _ ih | item _ ih => exact ih
  | alternative _ _ ih ih' | comma _ _ ih ih' => exact isChain_mark ih ih'
  | product _ ih => exact isChain_mark (isChain_cons_of_apart (Token.mark_apart _) ih) .nil
  | quoted _ => exact .singleton _
  | tuple _ ih | applied _ _ ih =>
      refine isChain_mark (isChain_cons_of_apart ?_ (isChain_cons_of_apart ?_ ih)) .nil
      · simp [Token.Apart]
      · exact Token.mark_apart _
  | name _ => exact .singleton _
  | function _ _ ih ih' =>
      refine isChain_mark (isChain_cons_of_apart (Token.mark_apart _) ih) ?_
      exact isChain_cons_of_apart (by simp [Token.Apart]) ih'
  | empty => exact .nil

end Toolchain.Ty

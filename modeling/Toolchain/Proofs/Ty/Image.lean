import Toolchain.Proofs.Ty.Rendering
import Toolchain.Proofs.Ty.WellFormedness

namespace Toolchain.Ty

open Text

variable {t : Ty} {ts : List Ty} {tokens us : List Token} {n : String} {c : Char}

section text

def spaced (tokens : List Token) : List Char := tokens.flatMap fun token => token.text ++ [' ']

def Legible (tokens : List Token) : Prop := ∀ token ∈ tokens, Written token token.text

theorem spelled_spaced (h : Legible tokens) : Spelled (spaced tokens) tokens := by
  induction tokens with
  | nil => exact .done (List.forall_mem_nil _)
  | cons token tokens ih =>
      obtain ⟨hw, hrest⟩ := List.forall_mem_cons.mp h
      have hhalts : Halts (' ' :: spaced tokens) := by
        intro d hd
        obtain rfl := Option.some.inj hd
        exact isNameChar_of_isBlank isBlank_space
      have hs := Spelled.next hw (fun _ _ => hhalts) ((ih hrest).blank isBlank_space)
      simpa [spaced] using hs

namespace Legible

theorem append (h : Legible tokens) (h' : Legible us) : Legible (tokens ++ us) :=
  List.forall_mem_append.mpr ⟨h, h'⟩

theorem mark (hm : c ∈ marks) (h : Legible tokens) : Legible (.mark c :: tokens) :=
  List.forall_mem_cons.mpr ⟨.mark hm, h⟩

theorem arrow (h : Legible tokens) : Legible (.arrow :: tokens) :=
  List.forall_mem_cons.mpr ⟨.arrow, h⟩

theorem name (hn : isName n = true) (h : Legible tokens) : Legible (.name n :: tokens) :=
  List.forall_mem_cons.mpr ⟨written_of_isName hn, h⟩

theorem closed (hm : c ∈ marks) (h : Legible tokens) : Legible (tokens ++ [.mark c]) :=
  h.append (.mark hm (List.forall_mem_nil _))

theorem applied (hn : isName n = true) (h : Legible tokens) :
    Legible (.name n :: .mark '<' :: tokens ++ [.mark '>']) :=
  .closed (by decide) (.name hn (.mark (by decide) h))

theorem spellings (hm : c ∈ marks) (h : ∀ t ∈ ts, Legible t.spelling) :
    Legible (spellings c ts) := by
  induction ts with
  | nil => exact List.forall_mem_nil _
  | cons t ts ih =>
      obtain ⟨ht, hts⟩ := List.forall_mem_cons.mp h
      cases ts with
      | nil => exact ht
      | cons u us => exact ht.append (.mark hm (ih hts))

end Legible

theorem Expressible.legible (h : Expressible t) : Legible t.spelling := by
  induction h with
  | con hp => exact .name (isName_con hp) (List.forall_mem_nil _)
  | @var n hn hcs =>
      have hne : n.toList ≠ [] := by simpa using hn
      have hw := Written.quoted hne hcs
      rw [String.ofList_toList] at hw
      exact List.forall_mem_singleton.mpr hw
  | @generic n args hn _ _ ih =>
      cases args with
      | nil => exact .name hn (List.forall_mem_nil _)
      | cons t ts => exact .applied hn (.spellings (by decide) ih)
  | product _ ih => exact .closed (by decide) (.mark (by decide) (.spellings (by decide) ih))
  | sum _ _ ih => exact .spellings (by decide) ih
  | tuple _ ih =>
      refine .closed (by decide) (.name isName_tupleName (.mark (by decide) ?_))
      exact .spellings (by decide) ih
  | func _ _ ih ih' =>
      refine .append (.mark (by decide) (.spellings (by decide) ih)) ?_
      exact .mark (by decide) ih'.arrow
  | unary c _ ih => exact .applied (isName_unary c) ih
  | binary c _ _ ih ih' => exact .applied (isName_binary c) (ih.append (ih'.mark (by decide)))

def source (t : Ty) : String := String.ofList (spaced t.spelling)

theorem Expressible.parse_source (h : Expressible t) : parse t.source = .ok t := by
  rw [parse_eq_ok, ← denotes_iff_derives_lex]
  refine ⟨t.spelling, ?_, h.derives.union_of_phrase⟩
  rw [source, String.toList_ofList]
  exact spelled_spaced h.legible

end text

def Sayable : Ty → Prop
  | .absent => False
  | .con n => n ∈ primitives
  | .var n => n ≠ "" ∧ ∀ c ∈ n.toList, isNameChar c = true
  | .generic n _ => isName n = true ∧ n ∉ reserved
  | .sum ts => 2 ≤ ts.length ∧ Apposed ts
  | _ => True

theorem Expressible.sayable (h : Expressible t) : t.Sayable := by
  cases h with
  | con hp => exact hp
  | var hn hcs => exact ⟨hn, hcs⟩
  | generic hn hr _ => exact ⟨hn, hr⟩
  | sum _ ha => exact ⟨by simp, ha⟩
  | product _ | tuple _ | func _ _ | unary _ _ | binary _ _ _ => trivial

theorem Expressible.children (h : Expressible t) : ∀ c ∈ t.children, Expressible c := by
  cases h with
  | con _ | var _ _ => exact List.forall_mem_nil _
  | generic _ _ h | product h | sum h _ | tuple h => exact h
  | func hps hr => exact List.forall_mem_append.mpr ⟨hps, List.forall_mem_singleton.mpr hr⟩
  | unary _ h => exact List.forall_mem_singleton.mpr h
  | binary _ h h' => exact List.forall_mem_cons.mpr ⟨h, List.forall_mem_singleton.mpr h'⟩

theorem expressible_of_children (hs : t.Sayable) (hc : ∀ c ∈ t.children, Expressible c) :
    Expressible t := by
  cases t with
  | absent => exact hs.elim
  | con n => exact .con hs
  | var n => exact .var hs.1 hs.2
  | generic n args => exact .generic hs.1 hs.2 hc
  | product ts => exact .product hc
  | sum ts =>
      cases ts with
      | nil => exact absurd hs.1 (by simp)
      | cons t ts =>
          cases ts with
          | nil => exact absurd hs.1 (by simp)
          | cons u us => exact .sum hc hs.2
  | tuple ts => exact .tuple hc
  | func ps r =>
      obtain ⟨hps, hr⟩ := List.forall_mem_append.mp hc
      exact .func hps (List.forall_mem_singleton.mp hr)
  | unary c t => exact .unary c (List.forall_mem_singleton.mp hc)
  | binary c t u =>
      obtain ⟨ht, hu⟩ := List.forall_mem_cons.mp hc
      exact .binary c ht (List.forall_mem_singleton.mp hu)

theorem expressible_iff_occurs (t : Ty) : Expressible t ↔ ∀ u, Occurs u t → u.Sayable :=
  iff_forall_occurs
    (fun _ => ⟨fun h => ⟨h.sayable, h.children⟩, fun h => expressible_of_children h.1 h.2⟩) t

theorem parse_reaches_exactly_sayable :
    (∀ t, (∃ src, parse src = .ok t) ↔ ∀ u, Occurs u t → u.Sayable) ∧
    ∀ src t, parse src = .ok t → t.isWellFormed = true := by
  constructor
  · intro t
    rw [← expressible_iff_occurs]
    exact ⟨fun ⟨_, h⟩ => expressible_of_parse h, fun h => ⟨t.source, h.parse_source⟩⟩
  · intro src t h
    rw [isWellFormed, (expressible_of_parse h).firstMalformed]
    rfl

end Toolchain.Ty

import Toolchain.Proofs.Ty.Parsing
import Toolchain.Ty.WellFormed

namespace Toolchain.Ty

open Text

def isName (s : String) : Bool :=
  match s.toList with
  | [] => false
  | c :: cs => isNameStart c && cs.all isNameChar

def reserved : List String :=
  primitives ++ selfName :: ([Unary.vec, .set, .option, .task].map Unary.name ++
    [Binary.map, .result].map Binary.name)

def isSum : Ty → Bool
  | .sum _ => true
  | _ => false

def isFunc : Ty → Bool
  | .func .. => true
  | _ => false

/-- Alternatives side by side: none is itself a sum, and none but the last an arrow. -/
def Apposed (ts : List Ty) : Prop :=
  (∀ t ∈ ts, t.isSum = false) ∧ ∀ t ∈ ts.dropLast, t.isFunc = false

inductive Expressible : Ty → Prop
  | con {n : String} : n ∈ primitives → Expressible (.con n)
  | var {n : String} : n ≠ "" → (∀ c ∈ n.toList, isNameChar c = true) → Expressible (.var n)
  | generic {n : String} {args : List Ty} : isName n = true → n ∉ reserved →
      (∀ t ∈ args, Expressible t) → Expressible (.generic n args)
  | product {ts : List Ty} : (∀ t ∈ ts, Expressible t) → Expressible (.product ts)
  | sum {t u : Ty} {ts : List Ty} : (∀ v ∈ t :: u :: ts, Expressible v) →
      Apposed (t :: u :: ts) → Expressible (.sum (t :: u :: ts))
  | tuple {ts : List Ty} : (∀ t ∈ ts, Expressible t) → Expressible (.tuple ts)
  | func {ps : List Ty} {r : Ty} : (∀ t ∈ ps, Expressible t) → Expressible r →
      Expressible (.func ps r)
  | unary (c : Unary) {t : Ty} : Expressible t → Expressible (.unary c t)
  | binary (c : Binary) {t u : Ty} : Expressible t → Expressible u → Expressible (.binary c t u)

variable {t u r : Ty} {ts tys args : List Ty} {tokens toks : List Token} {p : Phrase} {n : String}
  {cs : List Char}

theorem isName_of_written (h : Written (.name n) cs) : isName n = true := by
  cases h with
  | name hs hcs => simpa [isName, hs] using hcs

theorem written_of_isName (h : isName n = true) : Written (.name n) n.toList := by
  unfold isName at h
  split at h
  next => exact absurd h (by simp)
  next c cs hn =>
    rw [Bool.and_eq_true, List.all_eq_true] at h
    have hw := Written.name h.1 h.2
    rwa [← hn, String.ofList_toList] at hw

theorem Spelled.written (h : Spelled cs tokens) : ∀ token ∈ tokens, ∃ w, Written token w := by
  induction h with
  | done _ => exact fun _ h => nomatch h
  | more _ hw _ _ ih => exact List.forall_mem_cons.mpr ⟨⟨_, hw⟩, ih⟩

theorem applied_generic_iff : Applied n args (.generic n args) ↔ n ∉ reserved := by
  constructor
  · intro h
    cases h with
    | generic hp hs hu hb => simp [reserved, hp, hs, hu, hb]
  · intro h
    refine .generic ?_ ?_ ?_ ?_
    · exact fun hp => h (List.mem_append_left _ hp)
    · rintro rfl
      exact h (by simp [reserved])
    · rintro c rfl
      exact h (by cases c <;> simp [reserved])
    · rintro c rfl
      exact h (by cases c <;> simp [reserved])

def Admits : Phrase → List Ty → Prop
  | .plain, tys => ∀ t ∈ tys, t.isSum = false ∧ t.isFunc = false
  | .arrow, tys => ∀ t ∈ tys, t.isSum = false
  | .alternatives, tys => Apposed tys
  | _, _ => True

theorem Applied.plain (h : Applied n args t) : t.isSum = false ∧ t.isFunc = false := by
  cases h <;> exact ⟨rfl, rfl⟩

theorem Derives.admits (h : Derives p tokens tys) : Admits p tys := by
  induction h with
  | single _ _ | sum _ _ | empty | filled _ _ | item _ _ | comma _ _ _ _ => trivial
  | lastPlain _ ih => exact ⟨fun t ht => (ih t ht).1, by simp⟩
  | lastArrow _ ih => exact ⟨ih, by simp⟩
  | @alternative ts us t tys hp ha ih ih' =>
      obtain ⟨hs, hf⟩ := ih t (by simp)
      have hne : tys ≠ [] := by
        rintro rfl
        cases ha
      refine ⟨List.forall_mem_cons.mpr ⟨hs, ih'.1⟩, ?_⟩
      rw [List.dropLast_cons_of_ne_nil hne]
      exact List.forall_mem_cons.mpr ⟨hf, ih'.2⟩
  | product _ _ | quoted _ | tuple _ _ => exact fun t ht => by simp_all [isSum, isFunc]
  | name ha | applied _ ha _ => exact fun t ht => List.mem_singleton.mp ht ▸ ha.plain
  | function _ _ _ _ => exact fun t ht => by simp_all [isSum]

theorem Applied.expressible (h : Applied n args t) (hn : isName n = true)
    (hargs : ∀ u ∈ args, Expressible u) : Expressible t := by
  cases h with
  | primitive hp => exact .con hp
  | self =>
      have hall : selfName.toList.all isNameChar = true := by decide +kernel
      exact .var (by decide) (List.all_eq_true.mp hall)
  | unary c => exact .unary c (hargs _ (by simp))
  | binary c => exact .binary c (hargs _ (by simp)) (hargs _ (by simp))
  | generic hp hs hu hb =>
      have ha : Applied n args (.generic n args) := .generic hp hs hu hb
      exact .generic hn (applied_generic_iff.mp ha) hargs

theorem Derives.expressible (h : Derives p tokens tys)
    (hw : ∀ token ∈ tokens, ∃ w, Written token w) : ∀ t ∈ tys, Expressible t := by
  induction h with
  | single _ ih | lastPlain _ ih | lastArrow _ ih | filled _ ih | item _ ih => exact ih hw
  | sum h ih =>
      rw [List.forall_mem_singleton]
      exact .sum (ih hw) h.admits
  | alternative _ _ ih ih' | comma _ _ ih ih' =>
      rw [List.forall_mem_append, List.forall_mem_cons] at hw
      rw [List.forall_mem_cons]
      exact ⟨ih hw.1 _ (List.mem_singleton_self _), ih' hw.2.2⟩
  | product _ ih =>
      rw [List.forall_mem_append, List.forall_mem_cons] at hw
      rw [List.forall_mem_singleton]
      exact .product (ih hw.1.2)
  | quoted hs =>
      obtain ⟨w, h⟩ := hw _ (List.mem_singleton_self _)
      rw [List.forall_mem_singleton]
      cases h with
      | quoted _ hcs => exact .var hs (by simpa using hcs)
  | tuple _ ih =>
      rw [List.forall_mem_append, List.forall_mem_cons, List.forall_mem_cons] at hw
      rw [List.forall_mem_singleton]
      exact .tuple (ih hw.1.2.2)
  | name ha =>
      obtain ⟨w, h⟩ := hw _ (List.mem_singleton_self _)
      rw [List.forall_mem_singleton]
      exact ha.expressible (isName_of_written h) (fun _ h => nomatch h)
  | applied _ ha ih =>
      rw [List.forall_mem_append, List.forall_mem_cons, List.forall_mem_cons] at hw
      obtain ⟨⟨⟨w, h⟩, _, hts⟩, _⟩ := hw
      rw [List.forall_mem_singleton]
      exact ha.expressible (isName_of_written h) (ih hts)
  | function _ _ ih ih' =>
      rw [List.forall_mem_append, List.forall_mem_cons, List.forall_mem_cons,
        List.forall_mem_cons] at hw
      rw [List.forall_mem_singleton]
      exact .func (ih hw.1.2) (ih' hw.2.2.2 _ (List.mem_singleton_self _))
  | empty => exact fun _ h => nomatch h

theorem expressible_of_parse {src : String} (h : parse src = .ok t) : Expressible t := by
  obtain ⟨tokens, hs, hd⟩ := denotes_iff_derives_lex.mpr (parse_eq_ok.mp h)
  exact hd.expressible hs.written t (List.mem_singleton_self t)

theorem Expressible.firstMalformed (h : Expressible t) : t.firstMalformed = none := by
  induction h with
  | con hp => simp [Ty.firstMalformed, hp]
  | var _ _ => rfl
  | @generic n args hn _ _ ih =>
      have hne : n ≠ "" := by
        rintro rfl
        exact absurd hn (by decide)
      rw [Ty.firstMalformed, if_neg hne, firstMalformedOf_eq_none_iff.mpr ih]
  | product _ ih | sum _ _ ih | tuple _ ih => exact firstMalformedOf_eq_none_iff.mpr ih
  | func _ _ ih ih' =>
      rw [Ty.firstMalformed, firstMalformedOf_eq_none_iff.mpr ih, ih', Option.none_or]
  | unary _ _ ih => exact ih
  | binary _ _ _ ih ih' => rw [Ty.firstMalformed, ih, ih', Option.none_or]

section spelling

mutual
def spelling : Ty → List Token
  | .absent => []
  | .con n => [.name n]
  | .var n => [.variable n]
  | .generic n [] => [.name n]
  | .generic n (t :: ts) => .name n :: .mark '<' :: spellings ',' (t :: ts) ++ [.mark '>']
  | .product ts => .mark '(' :: spellings ',' ts ++ [.mark ')']
  | .sum ts => spellings '|' ts
  | .tuple ts => .name tupleName :: .mark '(' :: spellings ',' ts ++ [.mark ')']
  | .func ps r => .mark '(' :: spellings ',' ps ++ .mark ')' :: .arrow :: spelling r
  | .unary c t => .name c.name :: .mark '<' :: spelling t ++ [.mark '>']
  | .binary c t u =>
      .name c.name :: .mark '<' :: (spelling t ++ .mark ',' :: spelling u) ++ [.mark '>']
def spellings (c : Char) : List Ty → List Token
  | [] => []
  | [t] => spelling t
  | t :: u :: ts => spelling t ++ .mark c :: spellings c (u :: ts)
end

def phrase : Ty → Phrase
  | .sum _ => .union
  | .func .. => .arrow
  | _ => .plain

theorem Derives.alternatives_of_phrase (h : Derives t.phrase tokens [t]) (hs : t.isSum = false) :
    Derives .alternatives tokens [t] := by
  cases t with
  | sum _ => exact absurd hs (by simp [isSum])
  | func _ _ => exact .lastArrow h
  | _ => exact .lastPlain h

theorem Derives.plain_of_phrase (h : Derives t.phrase tokens [t]) (hs : t.isSum = false)
    (hf : t.isFunc = false) : Derives .plain tokens [t] := by
  cases t with
  | sum _ => exact absurd hs (by simp [isSum])
  | func _ _ => exact absurd hf (by simp [isFunc])
  | _ => exact h

theorem Derives.union_of_phrase (h : Derives t.phrase tokens [t]) : Derives .union tokens [t] := by
  cases hs : t.isSum with
  | true =>
      cases t with
      | sum _ => exact h
      | _ => exact absurd hs (by simp [isSum])
  | false => exact .single (h.alternatives_of_phrase hs)

theorem derives_items (hne : ts ≠ []) (h : ∀ t ∈ ts, Derives t.phrase t.spelling [t]) :
    Derives .items (spellings ',' ts) ts := by
  induction ts with
  | nil => exact absurd rfl hne
  | cons t ts ih =>
      obtain ⟨ht, hts⟩ := List.forall_mem_cons.mp h
      cases ts with
      | nil => exact .item ht.union_of_phrase
      | cons u us => exact .comma ht.union_of_phrase (ih (by simp) hts)

theorem derives_list (h : ∀ t ∈ ts, Derives t.phrase t.spelling [t]) :
    Derives .list (spellings ',' ts) ts := by
  cases ts with
  | nil => exact .empty
  | cons t ts => exact .filled (derives_items (by simp) h)

theorem derives_alternatives (hne : ts ≠ []) (ha : Apposed ts)
    (h : ∀ t ∈ ts, Derives t.phrase t.spelling [t]) :
    Derives .alternatives (spellings '|' ts) ts := by
  induction ts with
  | nil => exact absurd rfl hne
  | cons t ts ih =>
      obtain ⟨ht, hts⟩ := List.forall_mem_cons.mp h
      obtain ⟨hs, hss⟩ := List.forall_mem_cons.mp ha.1
      cases ts with
      | nil => exact ht.alternatives_of_phrase hs
      | cons u us =>
          have hf := List.forall_mem_cons.mp ha.2
          exact .alternative (ht.plain_of_phrase hs hf.1) (ih (by simp) ⟨hss, hf.2⟩ hts)

theorem Expressible.derives (h : Expressible t) : Derives t.phrase t.spelling [t] := by
  induction h with
  | con hp => exact .name (.primitive hp)
  | var hn _ => exact .quoted hn
  | @generic n args _ hr _ ih =>
      cases args with
      | nil => exact .name (applied_generic_iff.mpr hr)
      | cons t ts => exact .applied (derives_list ih) (applied_generic_iff.mpr hr)
  | product _ ih => exact .product (derives_list ih)
  | sum _ ha ih => exact .sum (derives_alternatives (by simp) ha ih)
  | tuple _ ih => exact .tuple (derives_list ih)
  | func _ _ ih ih' => exact .function (derives_list ih) ih'.union_of_phrase
  | unary c _ ih => exact .applied (.filled (.item ih.union_of_phrase)) (.unary c)
  | binary c _ _ ih ih' =>
      exact .applied (.filled (.comma ih.union_of_phrase (.item ih'.union_of_phrase))) (.binary c)

end spelling

end Toolchain.Ty

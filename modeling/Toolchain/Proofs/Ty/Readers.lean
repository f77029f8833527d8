import Toolchain.Proofs.Ty.Grammar
import Toolchain.Ty.Parser

namespace Toolchain

theorem Unary.ofName?_eq_some {s : String} {c : Unary} : ofName? s = some c ↔ s = c.name := by
  constructor
  · intro h
    have hc := List.find?_some h
    exact (of_decide_eq_true hc).symm
  · rintro rfl
    cases c <;> decide

theorem Unary.ofName?_eq_none {s : String} : ofName? s = none ↔ ∀ c : Unary, s ≠ c.name := by
  simp only [← ofName?_eq_some.not, Option.eq_none_iff_forall_ne_some, ne_eq]

theorem Binary.ofName?_eq_some {s : String} {c : Binary} : ofName? s = some c ↔ s = c.name := by
  constructor
  · intro h
    have hc := List.find?_some h
    exact (of_decide_eq_true hc).symm
  · rintro rfl
    cases c <;> decide

theorem Binary.ofName?_eq_none {s : String} : ofName? s = none ↔ ∀ c : Binary, s ≠ c.name := by
  simp only [← ofName?_eq_some.not, Option.eq_none_iff_forall_ne_some, ne_eq]

namespace Ty

namespace Parse

variable {fin : Nat} {c : Char} {l : Lexeme} {ls r : List Lexeme} {t : Ty} {ts : List Ty}
  {token : Token}

def Gives {α : Type} {P : List Lexeme → Prop} (x : Except Failure (α × { r // P r })) (a : α)
    (r : List Lexeme) : Prop := ∃ h, x = .ok (a, ⟨r, h⟩)

def Starts (token : Token) (ls : List Lexeme) : Prop := ∃ l r, ls = l :: r ∧ l.token = token

def joined (t : Ty) : List Ty → Ty
  | [] => t
  | u :: us => .sum (t :: u :: us)

theorem accept?_cons (l : Lexeme) (r : List Lexeme) :
    accept? l.token (l :: r) = some ⟨r, Nat.lt_succ_self r.length⟩ := if_pos rfl

theorem accept?_eq_none (h : ¬ Starts token ls) : accept? token ls = none := by
  cases ls with
  | nil => rfl
  | cons l r => exact if_neg fun he => h ⟨l, r, rfl, he⟩

theorem starts_of_accept? {h : r.length < ls.length} (ha : accept? token ls = some ⟨r, h⟩) :
    ∃ l, ls = l :: r ∧ l.token = token := by
  cases ls with
  | nil => exact absurd ha (by simp [accept?])
  | cons l r' =>
      by_cases hl : l.token = token
      · simp only [accept?, hl, if_true, Option.some.injEq, Subtype.mk.injEq] at ha
        exact ⟨l, by rw [ha], hl⟩
      · simp only [accept?, hl, if_false] at ha
        exact absurd ha (by simp)

theorem not_starts_of_accept? (h : accept? token ls = none) : ¬ Starts token ls := by
  rintro ⟨l, r, rfl, rfl⟩
  rw [accept?_cons] at h
  exact absurd h (by simp)

theorem gives_union : Gives (union fin ls) t r ↔ ∃ u r₀ us, Gives (member fin ls) u r₀ ∧
    Gives (members fin r₀) us r ∧ t = joined u us := by
  constructor
  · rintro ⟨h, he⟩
    rw [union] at he
    split at he
    next => exact absurd he (by simp)
    next u r₀ h₀ hm =>
      split at he
      next => exact absurd he (by simp)
      next r₁ h₁ hms =>
        cases he
        exact ⟨_, r₀, [], ⟨h₀, hm⟩, ⟨h₁, hms⟩, rfl⟩
      next v vs r₁ h₁ hms =>
        cases he
        exact ⟨u, r₀, v :: vs, ⟨h₀, hm⟩, ⟨h₁, hms⟩, rfl⟩
  · rintro ⟨u, r₀, us, ⟨h₀, hm⟩, ⟨h₁, hms⟩, rfl⟩
    refine ⟨by omega, ?_⟩
    rw [union, hm]
    cases us <;> simp only [hms, joined]

theorem gives_members : Gives (members fin ls) ts r ↔
    ¬ Starts (.mark '|') ls ∧ ts = [] ∧ r = ls ∨
      ∃ l ls' t r₀ us, ls = l :: ls' ∧ l.token = .mark '|' ∧ Gives (member fin ls') t r₀ ∧
        Gives (members fin r₀) us r ∧ ts = t :: us := by
  constructor
  · rintro ⟨h, he⟩
    rw [members] at he
    split at he
    next ha =>
      cases he
      exact .inl ⟨not_starts_of_accept? ha, rfl, rfl⟩
    next ls' h' ha =>
      obtain ⟨l, hls, hl⟩ := starts_of_accept? ha
      split at he
      next => exact absurd he (by simp)
      next t r₀ h₀ hm =>
        split at he
        next => exact absurd he (by simp)
        next us r₁ h₁ hms =>
          cases he
          exact .inr ⟨l, ls', t, r₀, us, hls, hl, ⟨h₀, hm⟩, ⟨h₁, hms⟩, rfl⟩
  · rintro (⟨hs, rfl, rfl⟩ | ⟨l, ls', t, r₀, us, rfl, hl, ⟨h₀, hm⟩, ⟨h₁, hms⟩, rfl⟩)
    · exact ⟨Nat.le_refl _, by rw [members, accept?_eq_none hs]⟩
    · refine ⟨by simp only [List.length_cons]; omega, ?_⟩
      rw [members, ← hl, accept?_cons]
      simp only [hm, hms]

theorem gives_arguments : Gives (arguments fin ls) ts r ↔
    ¬ Starts (.mark '<') ls ∧ ts = [] ∧ r = ls ∨
      ∃ l ls', ls = l :: ls' ∧ l.token = .mark '<' ∧ Gives (list fin '>' ls') ts r := by
  constructor
  · rintro ⟨h, he⟩
    rw [arguments] at he
    split at he
    next ha =>
      cases he
      exact .inl ⟨not_starts_of_accept? ha, rfl, rfl⟩
    next ls' h' ha =>
      obtain ⟨l, hls, hl⟩ := starts_of_accept? ha
      split at he
      next => exact absurd he (by simp)
      next us r₀ h₀ hlist =>
        cases he
        exact .inr ⟨l, ls', hls, hl, h₀, hlist⟩
  · rintro (⟨hs, rfl, rfl⟩ | ⟨l, ls', rfl, hl, h₀, hlist⟩)
    · exact ⟨Nat.le_refl _, by rw [arguments, accept?_eq_none hs]⟩
    · refine ⟨by simp only [List.length_cons]; omega, ?_⟩
      rw [arguments, ← hl, accept?_cons]
      simp only [hlist]

theorem gives_list : Gives (list fin c ls) ts r ↔
    (∃ l, ls = l :: r ∧ l.token = .mark c ∧ ts = []) ∨
      ¬ Starts (.mark c) ls ∧ Gives (items fin c ls) ts r := by
  constructor
  · rintro ⟨h, he⟩
    rw [list] at he
    split at he
    next s ha =>
      cases he
      obtain ⟨l, hls, hl⟩ := starts_of_accept? ha
      exact .inl ⟨l, hls, hl, rfl⟩
    next ha => exact .inr ⟨not_starts_of_accept? ha, h, he⟩
  · rintro (⟨l, rfl, hl, rfl⟩ | ⟨hs, h, hi⟩)
    · exact ⟨by simp, by rw [list, ← hl, accept?_cons]⟩
    · exact ⟨h, by rw [list, accept?_eq_none hs]; exact hi⟩

theorem expect_eq_ok {h : r.length < ls.length} : expect fin c ls = .ok ⟨r, h⟩ ↔
    ∃ l, ls = l :: r ∧ l.token = .mark c := by
  cases ls with
  | nil => simp [expect]
  | cons l r' =>
      by_cases hl : l.token = .mark c
      · simp [expect, hl]
      · simp [expect, hl]

theorem gives_items : Gives (items fin c ls) ts r ↔ ∃ t r₀, Gives (union fin ls) t r₀ ∧
    ((∃ l r₁ us, r₀ = l :: r₁ ∧ l.token = .mark ',' ∧ Gives (items fin c r₁) us r ∧ ts = t :: us) ∨
      ¬ Starts (.mark ',') r₀ ∧ ∃ l, r₀ = l :: r ∧ l.token = .mark c ∧ ts = [t]) := by
  constructor
  · rintro ⟨h, he⟩
    rw [items] at he
    split at he
    next => exact absurd he (by simp)
    next t r₀ h₀ hu =>
      refine ⟨t, r₀, ⟨h₀, hu⟩, ?_⟩
      split at he
      next r₁ h₁ ha =>
        obtain ⟨l, hr, hl⟩ := starts_of_accept? ha
        split at he
        next => exact absurd he (by simp)
        next us r₂ h₂ hi =>
          cases he
          exact .inl ⟨l, r₁, us, hr, hl, ⟨h₂, hi⟩, rfl⟩
      next ha =>
        split at he
        next => exact absurd he (by simp)
        next r₁ h₁ hx =>
          cases he
          obtain ⟨l, hr, hl⟩ := expect_eq_ok.mp hx
          exact .inr ⟨not_starts_of_accept? ha, l, hr, hl, rfl⟩
  · rintro ⟨t, r₀, ⟨h₀, hu⟩, ⟨l, r₁, us, rfl, hl, ⟨h₂, hi⟩, rfl⟩ | ⟨hs, l, rfl, hl, rfl⟩⟩
    · simp only [List.length_cons] at h₀
      refine ⟨by omega, ?_⟩
      rw [items, hu]
      simp only [← hl, accept?_cons, hi]
    · have hx : expect fin c (l :: r) = .ok ⟨r, by simp⟩ := expect_eq_ok.mpr ⟨l, rfl, hl⟩
      simp only [List.length_cons] at h₀
      refine ⟨by omega, ?_⟩
      rw [items, hu]
      simp only [accept?_eq_none hs, hx]

theorem ofName_eq_ok {n : String} : ofName n ts = .ok t ↔ Applied n ts t := by
  constructor
  · intro h
    unfold ofName at h
    split at h
    next hp =>
      split at h
      next => cases h; exact .primitive hp
      next => exact absurd h (by simp)
    next hp =>
      split at h
      next hs =>
        subst hs
        split at h
        next => cases h; exact .self
        next => exact absurd h (by simp)
      next hs =>
        split at h
        next hc =>
          cases h
          obtain rfl := Unary.ofName?_eq_some.mp hc
          exact .unary _
        next => exact absurd h (by simp)
        next hb =>
          cases h
          obtain rfl := Binary.ofName?_eq_some.mp hb
          exact .binary _
        next => exact absurd h (by simp)
        next hu hb =>
          cases h
          exact .generic hp hs (Unary.ofName?_eq_none.mp hu) (Binary.ofName?_eq_none.mp hb)
  · intro h
    cases h with
    | primitive hp => rw [ofName, if_pos hp]
    | self => rfl
    | unary c => cases c <;> rfl
    | binary c => cases c <;> rfl
    | generic hp hs hu hb =>
        rw [ofName.eq_def, if_neg hp, if_neg hs, Unary.ofName?_eq_none.mpr hu,
          Binary.ofName?_eq_none.mpr hb]

inductive Took (fin : Nat) : List Lexeme → Ty → List Lexeme → Prop
  | product {l : Lexeme} {ls r : List Lexeme} {ts : List Ty} : l.token = .mark '(' →
      Gives (list fin ')' ls) ts r → ¬ Starts .arrow r → Took fin (l :: ls) (.product ts) r
  | function {l a : Lexeme} {ls r₀ r : List Lexeme} {ts : List Ty} {t : Ty} :
      l.token = .mark '(' → Gives (list fin ')' ls) ts (a :: r₀) → a.token = .arrow →
      Gives (union fin r₀) t r → Took fin (l :: ls) (.func ts t) r
  | quoted {l : Lexeme} {r : List Lexeme} {s : String} : l.token = .variable s → s ≠ "" →
      Took fin (l :: r) (.var s) r
  | tuple {l b : Lexeme} {ls r : List Lexeme} {ts : List Ty} : l.token = .name tupleName →
      b.token = .mark '(' → Gives (list fin ')' ls) ts r → Took fin (l :: b :: ls) (.tuple ts) r
  | named {l : Lexeme} {ls r : List Lexeme} {n : String} {ts : List Ty} {t : Ty} :
      l.token = .name n → ¬ (n = tupleName ∧ Starts (.mark '(') ls) →
      Gives (arguments fin ls) ts r → Applied n ts t → Took fin (l :: ls) t r

theorem named_eq_ok {n : String} {q : Nat} : named n q ts = .ok t ↔ Applied n ts t := by
  rw [← ofName_eq_ok, named]
  split <;> simp [*]

theorem openTuple?_eq_none {n : String} :
    openTuple? n ls = none ↔ ¬ (n = tupleName ∧ Starts (.mark '(') ls) := by
  unfold openTuple?
  split
  next hn =>
    constructor
    · exact fun ha hs => not_starts_of_accept? ha hs.2
    · exact fun hs => accept?_eq_none fun h => hs ⟨hn, h⟩
  next hn => simp [hn]

theorem took_of_open {p q : Nat} {h : r.length < _}
    (he : member fin (⟨p, q, .mark '('⟩ :: ls) = .ok (t, ⟨r, h⟩)) :
    Took fin (⟨p, q, .mark '('⟩ :: ls) t r := by
  rw [member.eq_def] at he
  simp only [if_true] at he
  split at he
  next => exact absurd he (by simp)
  next ts r₀ h₀ hlist =>
    split at he
    next ha =>
      cases he
      exact .product rfl ⟨h₀, hlist⟩ (not_starts_of_accept? ha)
    next r₁ h₁ ha =>
      obtain ⟨a, rfl, harrow⟩ := starts_of_accept? ha
      split at he
      next => exact absurd he (by simp)
      next u r₂ h₂ hu =>
        cases he
        exact .function rfl ⟨h₀, hlist⟩ harrow ⟨h₂, hu⟩

theorem took_of_name {p q : Nat} {n : String} {h : r.length < _}
    (he : member fin (⟨p, q, .name n⟩ :: ls) = .ok (t, ⟨r, h⟩)) :
    Took fin (⟨p, q, .name n⟩ :: ls) t r := by
  rw [member.eq_def] at he
  simp only at he
  split at he
  next r₀ h₀ ho =>
    unfold openTuple? at ho
    split at ho
    next hn =>
      subst hn
      obtain ⟨b, rfl, hb⟩ := starts_of_accept? ho
      split at he
      next => exact absurd he (by simp)
      next ts r₁ h₁ hlist =>
        cases he
        exact .tuple rfl hb ⟨h₁, hlist⟩
    next => exact absurd ho (by simp)
  next ho =>
    split at he
    next => exact absurd he (by simp)
    next ts r₀ h₀ hargs =>
      split at he
      next => exact absurd he (by simp)
      next u hu =>
        cases he
        exact .named rfl (openTuple?_eq_none.mp ho) ⟨h₀, hargs⟩ (named_eq_ok.mp hu)

theorem took_of_gives (hg : Gives (member fin ls) t r) : Took fin ls t r := by
  obtain ⟨h, he⟩ := hg
  cases ls with
  | nil =>
      rw [member.eq_def] at he
      exact absurd he (by simp)
  | cons l ls =>
      obtain ⟨p, q, token⟩ := l
      cases token with
      | mark c =>
          by_cases hc : c = '('
          · subst hc
            exact took_of_open he
          · rw [member.eq_def] at he
            simp only [hc, if_false] at he
            split at he <;> exact absurd he (by simp)
      | arrow =>
          rw [member.eq_def] at he
          exact absurd he (by simp)
      | «variable» s =>
          rw [member.eq_def] at he
          simp only at he
          split at he
          next => exact absurd he (by simp)
          next hs =>
            cases he
            exact .quoted rfl hs
      | name n => exact took_of_name he

theorem gives_of_took (h : Took fin ls t r) : Gives (member fin ls) t r := by
  cases h with
  | @product l ls r ts hl hlist hs =>
      obtain ⟨p, q, token⟩ := l
      obtain ⟨h₀, hlist⟩ := hlist
      cases hl
      refine ⟨by simp only [List.length_cons]; omega, ?_⟩
      rw [member.eq_def]
      simp only [hlist, accept?_eq_none hs, if_true]
  | @function l a ls r₀ r ts t hl hlist ha hu =>
      obtain ⟨p, q, token⟩ := l
      obtain ⟨h₀, hlist⟩ := hlist
      obtain ⟨h₁, hu⟩ := hu
      cases hl
      simp only [List.length_cons] at h₀
      refine ⟨by simp only [List.length_cons]; omega, ?_⟩
      rw [member.eq_def]
      simp only [hlist, ← ha, accept?_cons, hu, if_true]
  | @quoted l r s hl hs =>
      obtain ⟨p, q, token⟩ := l
      cases hl
      refine ⟨by simp, ?_⟩
      rw [member.eq_def]
      simp only [hs, if_false]
  | @tuple l b ls r ts hl hb hlist =>
      obtain ⟨p, q, token⟩ := l
      obtain ⟨h₀, hlist⟩ := hlist
      cases hl
      refine ⟨by simp only [List.length_cons]; omega, ?_⟩
      rw [member.eq_def]
      simp only [openTuple?, if_true, ← hb, accept?_cons, hlist]
  | @named l ls r n ts t hl hn hargs happ =>
      obtain ⟨p, q, token⟩ := l
      obtain ⟨h₀, hargs⟩ := hargs
      cases hl
      refine ⟨by simp only [List.length_cons]; omega, ?_⟩
      rw [member.eq_def]
      simp only [openTuple?_eq_none.mpr hn, hargs, named_eq_ok.mpr happ]

end Parse

end Ty

end Toolchain

import Toolchain.Proofs.Ty.Positions
import Toolchain.Proofs.Ty.Readers

namespace Toolchain.Ty

namespace Parse

variable {α β : Type} {fin fin' n : Nat} {c : Char} {l l' : Lexeme} {all ls lead r r' : List Lexeme}
  {token : Token} {e : Failure}

section combinators

abbrev Reader (α : Type) := Nat → List Lexeme → Except Failure (α × List Lexeme)

def Reader.pure (a : α) : Reader α := fun _ ls => .ok (a, ls)

def Reader.bind (x : Reader α) (k : α → Reader β) : Reader β := fun fin ls =>
  match x fin ls with
  | .error e => .error e
  | .ok (a, r) => k a fin r

def bare {P : List Lexeme → Prop} (x : Except Failure (α × { r // P r })) :
    Except Failure (α × List Lexeme) := x.map fun p => (p.1, p.2.1)

theorem length_of_bare {P : List Lexeme → Prop} {x : Except Failure (α × { r // P r })} {a : α}
    (h : bare x = .ok (a, r)) : P r := by
  cases x with
  | error e => exact absurd h (by simp [bare, Except.map])
  | ok p =>
      simp only [bare, Except.map, Except.ok.injEq, Prod.mk.injEq] at h
      exact h.2 ▸ p.2.2

def Reader.accepts (token : Token) : Reader Bool := fun _ ls =>
  match accept? token ls with
  | some ⟨r, _⟩ => .ok (true, r)
  | none => .ok (false, ls)

def Reader.expects (c : Char) : Reader Unit := fun fin ls =>
  (expect fin c ls).map fun r => ((), r.1)

def Reader.opens (name : String) : Reader Bool :=
  if name = tupleName then accepts (.mark '(') else .pure false

def Reader.named (name : String) (stop : Nat) (args : List Ty) : Reader Ty := fun _ ls =>
  (Parse.named name stop args).map fun t => (t, ls)

def Reader.union : Reader Ty := fun fin ls => bare (Parse.union fin ls)

def Reader.members : Reader (List Ty) := fun fin ls => bare (Parse.members fin ls)

def Reader.member : Reader Ty := fun fin ls => bare (Parse.member fin ls)

def Reader.arguments : Reader (List Ty) := fun fin ls => bare (Parse.arguments fin ls)

def Reader.list (c : Char) : Reader (List Ty) := fun fin ls => bare (Parse.list fin c ls)

def Reader.items (c : Char) : Reader (List Ty) := fun fin ls => bare (Parse.items fin c ls)

end combinators

section equations

open Reader

theorem union_eq : Reader.union =
    Reader.member.bind fun t => Reader.members.bind fun us => .pure (joined t us) := by
  funext fin ls
  rw [Reader.union, Parse.union, Reader.bind, Reader.member]
  cases Parse.member fin ls with
  | error e => rfl
  | ok p =>
      obtain ⟨t, r, h⟩ := p
      simp only [bare, Except.map, Reader.bind, Reader.members]
      cases Parse.members fin r with
      | error e => rfl
      | ok q =>
          obtain ⟨us, r', h'⟩ := q
          cases us <;> rfl

theorem members_eq : Reader.members = (accepts (.mark '|')).bind fun found =>
    if found then Reader.member.bind fun t => Reader.members.bind fun ts => .pure (t :: ts)
    else .pure [] := by
  funext fin ls
  rw [Reader.members, Parse.members, Reader.bind, Reader.accepts]
  cases accept? (.mark '|') ls with
  | none => rfl
  | some s =>
      obtain ⟨r, h⟩ := s
      simp only [if_true, Reader.bind, Reader.member]
      cases Parse.member fin r with
      | error e => rfl
      | ok p =>
          obtain ⟨t, r', h'⟩ := p
          simp only [bare, Except.map, Reader.members]
          cases Parse.members fin r' with
          | error e => rfl
          | ok q => rfl

theorem arguments_eq : Reader.arguments = (accepts (.mark '<')).bind fun found =>
    if found then Reader.list '>' else .pure [] := by
  funext fin ls
  rw [Reader.arguments, Parse.arguments, Reader.bind, Reader.accepts]
  cases accept? (.mark '<') ls with
  | none => rfl
  | some s =>
      obtain ⟨r, h⟩ := s
      simp only [if_true, Reader.list]
      cases Parse.list fin '>' r with
      | error e => rfl
      | ok p => rfl

theorem list_eq (c : Char) : Reader.list c = (accepts (.mark c)).bind fun found =>
    if found then .pure [] else Reader.items c := by
  funext fin ls
  rw [Reader.list, Parse.list, Reader.bind, Reader.accepts]
  cases accept? (.mark c) ls with
  | none => rfl
  | some s => rfl

theorem items_eq (c : Char) : Reader.items c = Reader.union.bind fun t =>
    (accepts (.mark ',')).bind fun found =>
      if found then (Reader.items c).bind fun ts => .pure (t :: ts)
      else (expects c).bind fun _ => .pure [t] := by
  funext fin ls
  rw [Reader.items, Parse.items, Reader.bind, Reader.union]
  cases Parse.union fin ls with
  | error e => rfl
  | ok p =>
      obtain ⟨t, r, h⟩ := p
      simp only [bare, Except.map, Reader.bind, Reader.accepts]
      cases accept? (.mark ',') r with
      | some s =>
          obtain ⟨r', h'⟩ := s
          simp only [if_true, Reader.bind, Reader.items]
          cases Parse.items fin c r' with
          | error e => rfl
          | ok q => rfl
      | none =>
          simp only [Bool.false_eq_true, if_false, Reader.bind, Reader.expects]
          cases Parse.expect fin c r with
          | error e => rfl
          | ok s => rfl

theorem member_open (hl : l.token = .mark '(') (fin : Nat) (ls : List Lexeme) :
    Reader.member fin (l :: ls) = ((Reader.list ')').bind fun ts =>
      (accepts .arrow).bind fun found =>
        if found then Reader.union.bind fun t => .pure (.func ts t)
        else .pure (.product ts)) fin ls := by
  obtain ⟨p, q, _⟩ := l
  cases hl
  rw [Reader.member, Parse.member.eq_def, Reader.bind, Reader.list]
  simp only [if_true]
  cases Parse.list fin ')' ls with
  | error e => rfl
  | ok p =>
      obtain ⟨ts, r, h⟩ := p
      simp only [bare, Except.map, Reader.bind, Reader.accepts]
      cases accept? .arrow r with
      | none => rfl
      | some s =>
          obtain ⟨r', h'⟩ := s
          simp only [if_true, Reader.bind, Reader.union]
          cases Parse.union fin r' with
          | error e => rfl
          | ok q => rfl

theorem member_name {name : String} (hl : l.token = .name name) (fin : Nat) (ls : List Lexeme) :
    Reader.member fin (l :: ls) = ((opens name).bind fun found =>
      if found then (Reader.list ')').bind fun ts => .pure (.tuple ts)
      else Reader.arguments.bind fun ts => Reader.named name l.stop ts) fin ls := by
  obtain ⟨p, q, _⟩ := l
  cases hl
  have hopens : opens name fin ls = .ok (match openTuple? name ls with
      | some ⟨r, _⟩ => (true, r)
      | none => (false, ls)) := by
    rw [opens, openTuple?]
    split
    · rw [accepts]
      cases accept? (.mark '(') ls <;> rfl
    · rfl
  rw [Reader.member, Parse.member.eq_def, Reader.bind, hopens]
  simp only
  cases openTuple? name ls with
  | some s =>
      obtain ⟨r, h⟩ := s
      simp only [if_true, Reader.bind, Reader.list]
      cases Parse.list fin ')' r with
      | error e => rfl
      | ok p => rfl
  | none =>
      simp only [Bool.false_eq_true, if_false, Reader.bind, Reader.arguments]
      cases Parse.arguments fin ls with
      | error e => rfl
      | ok p =>
          obtain ⟨ts, r, h⟩ := p
          simp only [bare, Except.map, Reader.named]
          cases Parse.named name q ts with
          | error e => rfl
          | ok t => rfl

theorem member_nil (fin : Nat) : Reader.member fin [] = .error ⟨fin, .missingType⟩ := by
  rw [Reader.member, Parse.member.eq_def]
  rfl

theorem member_sign (hs : l.token.Sign) (ho : l.token ≠ .mark '(') (fin : Nat)
    (ls : List Lexeme) : Reader.member fin (l :: ls) = .error ⟨l.start,
      if l.token = .mark '\x00' then .missingType else .unexpected l.token.firstChar⟩ := by
  obtain ⟨p, q, t⟩ := l
  rw [Reader.member, Parse.member.eq_def]
  cases t with
  | mark c =>
      have hc : c ≠ '(' := fun h => ho (by rw [h])
      by_cases hz : c = '\x00'
      · simp [hz, bare, Except.map]
      · simp [hc, hz, bare, Except.map, Token.firstChar]
  | arrow => rfl
  | name n => exact hs.elim
  | «variable» s => exact hs.elim

theorem member_variable {s : String} (hl : l.token = .variable s) (fin : Nat)
    (ls : List Lexeme) : Reader.member fin (l :: ls) =
      if s = "" then .error ⟨l.start + 1, .missingVariable⟩ else .ok (.var s, ls) := by
  obtain ⟨p, q, t⟩ := l
  cases hl
  rw [Reader.member, Parse.member.eq_def]
  simp only
  split <;> rfl

end equations

section sight

def Ahead (fin fin' : Nat) : List Lexeme → List Lexeme → Prop
  | [], [] => fin' = fin
  | l :: _, l' :: _ => l.Alike l'
  | _, _ => False

theorem Ahead.refl (fin : Nat) (r : List Lexeme) : Ahead fin fin r r := by
  cases r with
  | nil => rfl
  | cons l r => exact ⟨rfl, .same _⟩

theorem Ahead.append (h : Ahead fin fin' r r') (lead : List Lexeme) :
    Ahead fin fin' (lead ++ r) (lead ++ r') := by
  cases lead with
  | nil => exact h
  | cons l lead => exact ⟨rfl, .same _⟩

theorem Ahead.nil (h : Ahead fin fin' [] r') : r' = [] ∧ fin' = fin := by
  cases r' with
  | nil => exact ⟨rfl, h⟩
  | cons l r' => exact h.elim

theorem Ahead.cons (h : Ahead fin fin' (l :: r) r') : ∃ l' r'', r' = l' :: r'' ∧ l.Alike l' := by
  cases r' with
  | nil => exact h.elim
  | cons l' r' => exact ⟨l', r', rfl, h⟩

theorem Ahead.starts_iff (h : Ahead fin fin' r r') (ht : token.Sign) :
    Starts token r' ↔ Starts token r := by
  cases r with
  | nil => rw [h.nil.1]
  | cons l r =>
      obtain ⟨l', r'', rfl, ha⟩ := h.cons
      simp [Starts, ha.token.eq_iff ht]

inductive Stuck (fin : Nat) : List Lexeme → Failure → Prop
  | ended : Stuck fin [] ⟨fin, .missingType⟩
  | unclosed (c : Char) : Stuck fin [] ⟨fin, .expected c none⟩
  | null {l : Lexeme} {r : List Lexeme} : l.token = .mark '\x00' →
      Stuck fin (l :: r) ⟨l.start, .missingType⟩
  | unexpected (l : Lexeme) (r : List Lexeme) :
      Stuck fin (l :: r) ⟨l.start, .unexpected l.token.firstChar⟩
  | expected {c : Char} {l : Lexeme} {r : List Lexeme} : l.token ≠ .mark c →
      Stuck fin (l :: r) ⟨l.start, .expected c (some l.token.firstChar)⟩
  | unnamed {l : Lexeme} {r : List Lexeme} : l.token = .variable "" →
      Stuck fin (l :: r) ⟨l.start + 1, .missingVariable⟩

def Miscounted (all : List Lexeme) (e : Failure) : Prop :=
  ∃ l ∈ all, ∃ name n m, l.token = .name name ∧ n ≠ m ∧ e = ⟨l.stop, .arity name n m⟩

/-- What a reader does with the lexemes, be it to give something or to fail, it also does with
others that begin alike, as far as it goes and one lexeme further. Only a wrong number of arguments
is found too late for that. -/
inductive Settles (all : List Lexeme) (x : Reader α) (fin : Nat) (ls : List Lexeme) : Prop
  | gives (a : α) (lead r : List Lexeme) : ls = lead ++ r →
      (∀ fin' r', Ahead fin fin' r r' → x fin' (lead ++ r') = .ok (a, r')) → Settles all x fin ls
  | fails (e : Failure) (lead r : List Lexeme) : ls = lead ++ r → Stuck fin r e →
      (∀ fin' r', Ahead fin fin' r r' → x fin' (lead ++ r') = .error e) → Settles all x fin ls
  | miscounts (e : Failure) : Miscounted all e → x fin ls = .error e → Settles all x fin ls

theorem Settles.bind {x : Reader α} {k : α → Reader β} (hx : Settles all x fin ls)
    (hk : ∀ a r, r <:+ ls → x fin ls = .ok (a, r) → Settles all (k a) fin r) :
    Settles all (x.bind k) fin ls := by
  cases hx with
  | gives a lead r hls hx =>
      have hok : x fin ls = .ok (a, r) := hls ▸ hx fin r (.refl fin r)
      cases hk a r ⟨lead, hls.symm⟩ hok with
      | gives b lead₂ r₂ hr hb =>
          refine .gives b (lead ++ lead₂) r₂ (by rw [hls, hr, List.append_assoc]) ?_
          intro fin' r' ha
          simp only [Reader.bind, List.append_assoc, hx fin' _ (hr ▸ ha.append lead₂), hb fin' r' ha]
      | fails e lead₂ r₂ hr hstuck he =>
          refine .fails e (lead ++ lead₂) r₂ (by rw [hls, hr, List.append_assoc]) hstuck ?_
          intro fin' r' ha
          simp only [Reader.bind, List.append_assoc, hx fin' _ (hr ▸ ha.append lead₂), he fin' r' ha]
      | miscounts e hm he => exact .miscounts e hm (by simp only [Reader.bind, hok, he])
  | fails e lead r hls hstuck he =>
      refine .fails e lead r hls hstuck fun fin' r' ha => ?_
      simp only [Reader.bind, he fin' r' ha]
  | miscounts e hm he => exact .miscounts e hm (by simp only [Reader.bind, he])

theorem settles_pure (a : α) : Settles all (Reader.pure a) fin ls :=
  .gives a [] ls rfl fun _ _ _ => rfl

theorem settles_accepts (token : Token) (ht : token.Sign) : Settles all (Reader.accepts token) fin ls := by
  by_cases hs : Starts token ls
  · obtain ⟨l, r, rfl, rfl⟩ := hs
    refine .gives true [l] r rfl fun fin' r' _ => ?_
    rw [List.singleton_append, Reader.accepts, accept?_cons]
  · refine .gives false [] ls rfl fun fin' r' ha => ?_
    rw [List.nil_append, Reader.accepts, accept?_eq_none ((ha.starts_iff ht).not.mpr hs)]

theorem settles_opens (name : String) : Settles all (Reader.opens name) fin ls := by
  unfold Reader.opens
  split
  · exact settles_accepts (.mark '(') trivial
  · exact settles_pure false

theorem settles_expects (c : Char) : Settles all (Reader.expects c) fin ls := by
  cases ls with
  | nil =>
      refine .fails _ [] [] rfl (.unclosed c) fun fin' r' ha => ?_
      obtain ⟨rfl, rfl⟩ := ha.nil
      rfl
  | cons l r =>
      by_cases hl : l.token = .mark c
      · refine .gives () [l] r rfl fun fin' r' _ => ?_
        simp [Reader.expects, expect, hl, Except.map]
      · refine .fails _ [] (l :: r) rfl (.expected hl) fun fin' r' ha => ?_
        obtain ⟨l', r'', rfl, halike⟩ := ha.cons
        have hsign : (Token.mark c).Sign := trivial
        have hl' : l'.token ≠ .mark c := (halike.token.eq_iff hsign).not.mpr hl
        simp [Reader.expects, expect, hl', Except.map, halike.start, halike.token.firstChar_eq]

theorem ne_of_ofName {name : String} {args : List Ty} (h : ofName name args = .error n) :
    n ≠ args.length := by
  unfold ofName at h
  rcases args with _ | ⟨t, _ | ⟨u, _ | ⟨v, args⟩⟩⟩ <;> grind

theorem settles_named {name : String} (hl : l ∈ all) (ht : l.token = .name name) (args : List Ty) :
    Settles all (Reader.named name l.stop args) fin ls := by
  cases ho : ofName name args with
  | ok t => exact .gives t [] ls rfl fun _ _ _ => by simp [Reader.named, Parse.named, ho, Except.map]
  | error n =>
      refine .miscounts _ ⟨l, hl, name, n, args.length, ht, ne_of_ofName ho, rfl⟩ ?_
      simp [Reader.named, Parse.named, ho, Except.map]

theorem Settles.cons {x y : Reader α} (h : Settles all y fin ls)
    (hxy : ∀ fin ls, x fin (l :: ls) = y fin ls) : Settles all x fin (l :: ls) := by
  cases h with
  | gives a lead r hls hy =>
      refine .gives a (l :: lead) r (by rw [hls]; rfl) fun fin' r' ha => ?_
      rw [List.cons_append, hxy, hy fin' r' ha]
  | fails e lead r hls hstuck he =>
      refine .fails e (l :: lead) r (by rw [hls]; rfl) hstuck fun fin' r' ha => ?_
      rw [List.cons_append, hxy, he fin' r' ha]
  | miscounts e hm he => exact .miscounts e hm (by rw [hxy, he])

end sight

section readers

theorem length_accepts (h : Reader.accepts token fin ls = .ok (true, r)) :
    r.length < ls.length := by
  unfold Reader.accepts at h
  split at h
  next s hs _ =>
    cases h
    exact hs
  next => exact absurd h (by simp)

def SettlesBelow (all : List Lexeme) (fin n : Nat) : Prop :=
  ∀ ls, ls.length < n → ls <:+ all → Settles all Reader.member fin ls

theorem SettlesBelow.members (hn : SettlesBelow all fin n) (hl : ls.length < n)
    (hs : ls <:+ all) : Settles all Reader.members fin ls := by
  induction hk : ls.length using Nat.strong_induction_on generalizing ls with
  | h k ih =>
      rw [members_eq]
      refine (settles_accepts (.mark '|') trivial).bind fun found r hr hfound => ?_
      cases found with
      | false => exact settles_pure []
      | true =>
          have hlt := length_accepts hfound
          refine (hn r (by omega) (hr.trans hs)).bind fun t r₂ hr₂ ht => ?_
          have hlt₂ : r₂.length < r.length := length_of_bare ht
          refine (ih r₂.length (by omega) (by omega) (hr₂.trans (hr.trans hs)) rfl).bind ?_
          exact fun ts _ _ _ => settles_pure (t :: ts)

theorem SettlesBelow.union (hn : SettlesBelow all fin n) (hl : ls.length < n)
    (hs : ls <:+ all) : Settles all Reader.union fin ls := by
  rw [union_eq]
  refine (hn ls hl hs).bind fun t r hr ht => ?_
  have hlt : r.length < ls.length := length_of_bare ht
  refine (hn.members (by omega) (hr.trans hs)).bind fun us _ _ _ => settles_pure (joined t us)

theorem SettlesBelow.items (hn : SettlesBelow all fin n) (hl : ls.length < n)
    (hs : ls <:+ all) : Settles all (Reader.items c) fin ls := by
  induction hk : ls.length using Nat.strong_induction_on generalizing ls with
  | h k ih =>
      rw [items_eq]
      refine (hn.union hl hs).bind fun t r hr ht => ?_
      have hlt : r.length < ls.length := length_of_bare ht
      refine (settles_accepts (.mark ',') trivial).bind fun found r₂ hr₂ hfound => ?_
      cases found with
      | true =>
          have hlt₂ := length_accepts hfound
          refine (ih r₂.length (by omega) (by omega) (hr₂.trans (hr.trans hs)) rfl).bind ?_
          exact fun ts _ _ _ => settles_pure (t :: ts)
      | false => exact (settles_expects c).bind fun _ _ _ _ => settles_pure [t]

theorem SettlesBelow.list (hn : SettlesBelow all fin n) (hl : ls.length < n)
    (hs : ls <:+ all) : Settles all (Reader.list c) fin ls := by
  rw [list_eq]
  refine (settles_accepts (.mark c) trivial).bind fun found r hr _ => ?_
  cases found with
  | true => exact settles_pure []
  | false => exact hn.items (Nat.lt_of_le_of_lt hr.length_le hl) (hr.trans hs)

theorem SettlesBelow.arguments (hn : SettlesBelow all fin n) (hl : ls.length < n)
    (hs : ls <:+ all) : Settles all Reader.arguments fin ls := by
  rw [arguments_eq]
  refine (settles_accepts (.mark '<') trivial).bind fun found r hr _ => ?_
  cases found with
  | true => exact hn.list (Nat.lt_of_le_of_lt hr.length_le hl) (hr.trans hs)
  | false => exact settles_pure []

theorem settles_sign (hl : l.token.Sign) (ho : l.token ≠ .mark '(') :
    Settles all Reader.member fin (l :: ls) := by
  have hstuck : Stuck fin (l :: ls) ⟨l.start,
      if l.token = .mark '\x00' then .missingType else .unexpected l.token.firstChar⟩ := by
    split
    next hz => exact .null hz
    next => exact .unexpected l ls
  refine .fails _ [] (l :: ls) rfl hstuck fun fin' r' ha => ?_
  obtain ⟨l', r'', rfl, halike⟩ := ha.cons
  have ht : l'.token = l.token := (halike.token.eq_iff hl).mpr rfl
  rw [List.nil_append, member_sign (ht ▸ hl) (ht ▸ ho), ht, halike.start]

theorem settles_variable {s : String} (hl : l.token = .variable s) :
    Settles all Reader.member fin (l :: ls) := by
  by_cases hs : s = ""
  · subst hs
    refine .fails _ [] (l :: ls) rfl (.unnamed hl) fun fin' r' ha => ?_
    obtain ⟨l', r'', rfl, halike⟩ := ha.cons
    have ht : l'.token = .variable "" := (hl ▸ halike.token).eq_unnamed
    rw [List.nil_append, member_variable ht, if_pos rfl, halike.start]
  · refine .gives (.var s) [l] ls rfl fun fin' r' _ => ?_
    rw [List.singleton_append, member_variable hl, if_neg hs]

theorem SettlesBelow.member (hn : SettlesBelow all fin n) (hl : ls.length < n + 1)
    (hs : ls <:+ all) : Settles all Reader.member fin ls := by
  cases ls with
  | nil =>
      refine .fails _ [] [] rfl .ended fun fin' r' ha => ?_
      obtain ⟨rfl, rfl⟩ := ha.nil
      exact member_nil fin'
  | cons l ls =>
      rw [List.length_cons] at hl
      have hls : ls <:+ all := (List.suffix_cons l ls).trans hs
      cases ht : l.token with
      | mark c =>
          by_cases hc : c = '('
          · refine Settles.cons ?_ (member_open (hc ▸ ht))
            refine (hn.list (by omega) hls).bind fun ts r hr hlist => ?_
            have hlt : r.length < ls.length := length_of_bare hlist
            refine (settles_accepts .arrow trivial).bind fun found r₂ hr₂ _ => ?_
            have hle := hr₂.length_le
            cases found with
            | true =>
                refine (hn.union (by omega) (hr₂.trans (hr.trans hls))).bind ?_
                exact fun t _ _ _ => settles_pure (Ty.func ts t)
            | false => exact settles_pure (Ty.product ts)
          · exact settles_sign (by rw [ht]; trivial) (by simpa [ht] using hc)
      | arrow => exact settles_sign (by rw [ht]; trivial) (by simp [ht])
      | «variable» s => exact settles_variable ht
      | name name =>
          refine Settles.cons ?_ (member_name ht)
          refine (settles_opens name).bind fun found r hr hfound => ?_
          have hle := hr.length_le
          cases found with
          | true =>
              refine (hn.list (by omega) (hr.trans hls)).bind ?_
              exact fun ts _ _ _ => settles_pure (Ty.tuple ts)
          | false =>
              refine (hn.arguments (by omega) (hr.trans hls)).bind ?_
              exact fun ts _ _ _ => settles_named (hs.subset (List.mem_cons_self ..)) ht ts

theorem settlesBelow (all : List Lexeme) (fin n : Nat) : SettlesBelow all fin n := by
  induction n with
  | zero => exact fun _ hl => absurd hl (Nat.not_lt_zero _)
  | succ n ih => exact fun _ hl hs => ih.member hl hs

def Reader.finish (t : Ty) : Reader Ty := fun _ ls =>
  match ls with
  | [] => .ok (t, [])
  | l :: _ => .error ⟨l.start, .unexpected l.token.firstChar⟩

theorem whole_eq (fin : Nat) (ls : List Lexeme) :
    whole fin ls = ((Reader.union.bind Reader.finish) fin ls).map (·.1) := by
  rw [whole, Reader.bind, Reader.union]
  cases Parse.union fin ls with
  | error e => rfl
  | ok p =>
      obtain ⟨t, r, h⟩ := p
      cases r with
      | nil => rfl
      | cons l r => rfl

theorem settles_finish (t : Ty) : Settles all (Reader.finish t) fin ls := by
  cases ls with
  | nil =>
      refine .gives t [] [] rfl fun fin' r' ha => ?_
      obtain ⟨rfl, _⟩ := ha.nil
      rfl
  | cons l r =>
      refine .fails _ [] (l :: r) rfl (.unexpected l r) fun fin' r' ha => ?_
      obtain ⟨l', r'', rfl, halike⟩ := ha.cons
      simp [Reader.finish, halike.start, halike.token.firstChar_eq]

theorem whole_eq_error (h : whole fin ls = .error e) : Miscounted ls e ∨
    ∃ lead r, ls = lead ++ r ∧ Stuck fin r e ∧
      ∀ fin' r', Ahead fin fin' r r' → whole fin' (lead ++ r') = .error e := by
  have hunion := (settlesBelow ls fin (ls.length + 1)).union (Nat.lt_succ_self _) List.suffix_rfl
  have hsettles : Settles ls (Reader.union.bind Reader.finish) fin ls :=
    hunion.bind fun t _ _ _ => settles_finish t
  rw [whole_eq] at h
  cases hsettles with
  | gives t lead r hls hx =>
      rw [hls, hx fin r (.refl fin r)] at h
      exact absurd h (by simp [Except.map])
  | fails f lead r hls hstuck hf =>
      rw [hls, hf fin r (.refl fin r)] at h
      cases h
      refine .inr ⟨lead, r, hls, hstuck, fun fin' r' ha => ?_⟩
      rw [whole_eq, hf fin' r' ha]
      rfl
  | miscounts f hm hf =>
      rw [hf] at h
      cases h
      exact .inl hm

end readers

end Parse

end Toolchain.Ty

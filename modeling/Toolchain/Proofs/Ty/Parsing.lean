import Toolchain.Proofs.Ty.Lexing
import Toolchain.Proofs.Ty.Readers

namespace Toolchain.Ty

namespace Parse

variable {fin : Nat} {c : Char} {ls r : List Lexeme} {t : Ty} {ts : List Ty} {token : Token}

def tokens (ls : List Lexeme) : List Token := ls.map (·.token)

theorem starts_of_tokens {us : List Token} (h : tokens ls = token :: us) : Starts token ls := by
  obtain ⟨l, r, rfl, hl, _⟩ := List.map_eq_cons_iff.mp h
  exact ⟨l, r, rfl, hl⟩

section soundness

def Membered (ls : List Lexeme) (t : Ty) (r : List Lexeme) : Prop :=
  ∃ ts, tokens ls = ts ++ tokens r ∧
    (Derives .plain ts [t] ∨ Derives .arrow ts [t] ∧ ¬ Starts (.mark '|') r)

def SoundBelow (fin n : Nat) : Prop :=
  ∀ ls t r, ls.length < n → Gives (member fin ls) t r → Membered ls t r

theorem Membered.alternatives {r₀ : List Lexeme} {us : List Ty} (hm : Membered ls t r₀)
    (hr : us = [] ∧ r = r₀ ∨
      ∃ ws, tokens r₀ = .mark '|' :: ws ++ tokens r ∧ Derives .alternatives ws us) :
    ∃ ts, tokens ls = ts ++ tokens r ∧ Derives .alternatives ts (t :: us) := by
  obtain ⟨ts, hts, hd⟩ := hm
  rcases hr with ⟨rfl, rfl⟩ | ⟨ws, hws, hws'⟩
  · exact ⟨ts, hts, hd.elim .lastPlain fun h => .lastArrow h.1⟩
  · refine ⟨ts ++ .mark '|' :: ws, by rw [hts, hws, List.append_assoc], ?_⟩
    rcases hd with hd | ⟨_, hn⟩
    · exact .alternative hd hws'
    · exact absurd (starts_of_tokens hws) hn

variable {n : Nat}

theorem SoundBelow.members (hn : SoundBelow fin n) (hl : ls.length < n)
    (hg : Gives (members fin ls) ts r) : ¬ Starts (.mark '|') r ∧ (ts = [] ∧ r = ls ∨
      ∃ us, tokens ls = .mark '|' :: us ++ tokens r ∧ Derives .alternatives us ts) := by
  induction hk : ls.length using Nat.strong_induction_on generalizing ls ts with
  | h k ih =>
      rcases gives_members.mp hg with ⟨hs, rfl, rfl⟩ | ⟨l, ls', t, r₀, us, rfl, hbar, hm, hms, rfl⟩
      · exact ⟨hs, .inl ⟨rfl, rfl⟩⟩
      · have h₀ : r₀.length < ls'.length := hm.1
        rw [List.length_cons] at hl hk
        obtain ⟨hr, hrest⟩ := ih r₀.length (by omega) (by omega) hms rfl
        obtain ⟨ws, hws, hd⟩ := (hn ls' t r₀ (by omega) hm).alternatives hrest
        refine ⟨hr, .inr ⟨ws, ?_, hd⟩⟩
        rw [tokens, List.map_cons, hbar]
        exact congrArg (Token.mark '|' :: ·) hws

theorem SoundBelow.union (hn : SoundBelow fin n) (hl : ls.length < n)
    (hg : Gives (union fin ls) t r) :
    ∃ ts, tokens ls = ts ++ tokens r ∧ Derives .union ts [t] ∧ ¬ Starts (.mark '|') r := by
  obtain ⟨u, r₀, us, hm, hms, rfl⟩ := gives_union.mp hg
  have h₀ : r₀.length < ls.length := hm.1
  obtain ⟨hr, hrest⟩ := hn.members (by omega) hms
  obtain ⟨ts, hts, hd⟩ := (hn ls u r₀ hl hm).alternatives hrest
  refine ⟨ts, hts, ?_, hr⟩
  cases us with
  | nil => exact .single hd
  | cons v vs => exact .sum hd

theorem SoundBelow.items (hn : SoundBelow fin n) (hl : ls.length < n)
    (hg : Gives (items fin c ls) ts r) :
    ∃ us, tokens ls = us ++ .mark c :: tokens r ∧ Derives .items us ts := by
  induction hk : ls.length using Nat.strong_induction_on generalizing ls ts with
  | h k ih =>
      obtain ⟨t, r₀, hu, hrest⟩ := gives_items.mp hg
      have h₀ : r₀.length < ls.length := hu.1
      obtain ⟨ws, hws, hd, _⟩ := hn.union hl hu
      rcases hrest with ⟨l, r₁, us, rfl, hcomma, hi, rfl⟩ | ⟨_, l, rfl, hclose, rfl⟩
      · rw [List.length_cons] at h₀
        obtain ⟨vs, hvs, hd'⟩ := ih r₁.length (by omega) (by omega) hi rfl
        refine ⟨ws ++ .mark ',' :: vs, ?_, .comma hd hd'⟩
        rw [hws, tokens, List.map_cons, hcomma, List.append_assoc]
        exact congrArg (ws ++ Token.mark ',' :: ·) hvs
      · refine ⟨ws, ?_, .item hd⟩
        rw [hws, tokens, List.map_cons, hclose]
        rfl

theorem SoundBelow.list (hn : SoundBelow fin n) (hl : ls.length < n)
    (hg : Gives (list fin c ls) ts r) :
    ∃ us, tokens ls = us ++ .mark c :: tokens r ∧ Derives .list us ts := by
  rcases gives_list.mp hg with ⟨l, rfl, hclose, rfl⟩ | ⟨_, hi⟩
  · refine ⟨[], ?_, .empty⟩
    rw [tokens, List.map_cons, hclose]
    rfl
  · obtain ⟨us, hus, hd⟩ := hn.items hl hi
    exact ⟨us, hus, .filled hd⟩

theorem SoundBelow.member (hn : SoundBelow fin n) (hl : ls.length < n + 1)
    (hg : Gives (member fin ls) t r) : Membered ls t r := by
  cases took_of_gives hg with
  | @product l ls r ts hopen hlist _ =>
      rw [List.length_cons] at hl
      obtain ⟨us, hus, hd⟩ := hn.list (by omega) hlist
      refine ⟨_, ?_, .inl (.product hd)⟩
      rw [tokens, List.map_cons, hopen]
      simpa [tokens] using hus
  | @function l a ls r₀ r ts t hopen hlist ha hu =>
      rw [List.length_cons] at hl
      have h₀ : (a :: r₀).length < ls.length := hlist.1
      rw [List.length_cons] at h₀
      obtain ⟨us, hus, hd⟩ := hn.list (by omega) hlist
      obtain ⟨ws, hws, hd', hr⟩ := hn.union (by omega) hu
      refine ⟨_, ?_, .inr ⟨.function hd hd', hr⟩⟩
      rw [tokens, List.map_cons, hopen]
      simp only [tokens, List.map_cons, ha] at hus hws
      simp [hus, hws, tokens]
  | @quoted l r s hvar hs =>
      refine ⟨_, ?_, .inl (.quoted hs)⟩
      rw [tokens, List.map_cons, hvar]
      rfl
  | @tuple l b ls r ts hname hopen hlist =>
      rw [List.length_cons, List.length_cons] at hl
      obtain ⟨us, hus, hd⟩ := hn.list (by omega) hlist
      refine ⟨_, ?_, .inl (.tuple hd)⟩
      rw [tokens, List.map_cons, hname, List.map_cons, hopen]
      simpa [tokens] using hus
  | @named l ls r m ts t hname _ hargs happ =>
      rw [List.length_cons] at hl
      rcases gives_arguments.mp hargs with ⟨_, rfl, rfl⟩ | ⟨b, ls', rfl, hopen, hlist⟩
      · refine ⟨_, ?_, .inl (.name happ)⟩
        rw [tokens, List.map_cons, hname]
        rfl
      · rw [List.length_cons] at hl
        obtain ⟨us, hus, hd⟩ := hn.list (by omega) hlist
        refine ⟨_, ?_, .inl (.applied hd happ)⟩
        rw [tokens, List.map_cons, hname, List.map_cons, hopen]
        simpa [tokens] using hus

theorem soundBelow (fin n : Nat) : SoundBelow fin n := by
  induction n with
  | zero => exact fun _ _ _ hl => absurd hl (Nat.not_lt_zero _)
  | succ n ih => exact fun _ _ _ hl hg => ih.member hl hg

end soundness

section completeness

def Before (allowed : List Token) (r : List Lexeme) : Prop := ∀ l ∈ r.head?, l.token ∈ allowed

def closing : List Token := [.mark ',', .mark ')', .mark '>']

variable {allowed : List Token} {us : List Token} {l : Lexeme} {p : Phrase}

theorem Before.not_starts (h : Before allowed r) (ht : token ∉ allowed) : ¬ Starts token r := by
  rintro ⟨l, r', rfl, rfl⟩
  exact ht (h l rfl)

theorem before_cons (h : l.token ∈ allowed) : Before allowed (l :: r) := by
  intro l' hl
  obtain rfl := Option.some.inj hl
  exact h

theorem Before.bar (h : Before closing r) : Before (.mark '|' :: closing) r :=
  fun l hl => List.mem_cons_of_mem _ (h l hl)

theorem mark_mem_closing (hc : c = ')' ∨ c = '>') : Token.mark c ∈ closing := by
  rcases hc with rfl | rfl <;> decide

def Reads (fin : Nat) : Phrase → List Lexeme → List Ty → Prop
  | .union, ls, tys => ∀ r, Before closing r → ∃ t, tys = [t] ∧ Gives (union fin (ls ++ r)) t r
  | .alternatives, ls, tys => ∀ r, Before closing r → ∃ t r₀ us, tys = t :: us ∧
      Gives (member fin (ls ++ r)) t r₀ ∧ Gives (members fin r₀) us r
  | .plain, ls, tys => ∀ r, Before (.mark '|' :: closing) r →
      ∃ t, tys = [t] ∧ Gives (member fin (ls ++ r)) t r
  | .arrow, ls, tys => ∀ r, Before closing r → ∃ t, tys = [t] ∧ Gives (member fin (ls ++ r)) t r
  | .list, ls, tys => ∀ c l r, c = ')' ∨ c = '>' → l.token = .mark c →
      Gives (list fin c (ls ++ l :: r)) tys r
  | .items, ls, tys => ∀ c l r, c = ')' ∨ c = '>' → l.token = .mark c →
      Gives (items fin c (ls ++ l :: r)) tys r

theorem split_tokens {ts₁ : List Token} (h : tokens ls = ts₁ ++ token :: us) :
    ∃ ls₁ l ls₂, ls = ls₁ ++ l :: ls₂ ∧ tokens ls₁ = ts₁ ∧ l.token = token ∧ tokens ls₂ = us := by
  obtain ⟨ls₁, ls', rfl, h₁, h'⟩ := List.map_eq_append_iff.mp h
  obtain ⟨l, ls₂, rfl, hl, h₂⟩ := List.map_eq_cons_iff.mp h'
  exact ⟨ls₁, l, ls₂, rfl, h₁, hl, h₂⟩

theorem split_last {ts₁ : List Token} (h : tokens ls = ts₁ ++ [token]) :
    ∃ ls₁ l, ls = ls₁ ++ [l] ∧ tokens ls₁ = ts₁ ∧ l.token = token := by
  obtain ⟨ls₁, l, ls₂, rfl, h₁, hl, h₂⟩ := split_tokens h
  obtain rfl := List.map_eq_nil_iff.mp h₂
  exact ⟨ls₁, l, rfl, h₁, hl⟩

theorem gives_members_nil (h : ¬ Starts (.mark '|') r) : Gives (members fin r) [] r :=
  gives_members.mpr (.inl ⟨h, rfl, rfl⟩)

theorem reads_alternatives_of_member (hr : ∀ r, Before closing r →
    ∃ t', [t] = [t'] ∧ Gives (member fin (ls ++ r)) t' r) : Reads fin .alternatives ls [t] := by
  intro r hb
  obtain ⟨t', ht, hm⟩ := hr r hb
  exact ⟨t', r, [], ht, hm, gives_members_nil (hb.not_starts (by decide))⟩

theorem not_starts_of_opens (h : Derives .items (tokens ls) ts) (hc : c = ')' ∨ c = '>') :
    ¬ Starts (.mark c) (ls ++ r) := by
  obtain ⟨token, rest, hts, ho⟩ := h.opens (by simp)
  obtain ⟨l, ls', rfl, rfl, _⟩ := List.map_eq_cons_iff.mp hts
  rintro ⟨l', r', he, hl⟩
  obtain ⟨rfl, _⟩ := List.cons.inj he
  rw [hl] at ho
  rcases hc with rfl | rfl <;> exact absurd ho (by simp [Token.Opens])

namespace Reads

variable {ls₁ ls₂ : List Lexeme} {a b : Lexeme} {n : String} {u : Ty}

theorem single (h : Reads fin .alternatives ls [t]) : Reads fin .union ls [t] := by
  intro r hb
  obtain ⟨t, r₀, us, ht, hm, hms⟩ := h r hb
  obtain ⟨rfl, rfl⟩ := List.cons.inj ht
  exact ⟨_, rfl, gives_union.mpr ⟨_, r₀, [], hm, hms, rfl⟩⟩

theorem sum (h : Reads fin .alternatives ls (t :: u :: ts)) :
    Reads fin .union ls [.sum (t :: u :: ts)] := by
  intro r hb
  obtain ⟨t, r₀, us, ht, hm, hms⟩ := h r hb
  obtain ⟨rfl, rfl⟩ := List.cons.inj ht
  exact ⟨_, rfl, gives_union.mpr ⟨_, r₀, _, hm, hms, rfl⟩⟩

theorem alternative (h : Reads fin .plain ls₁ [t]) (hl : l.token = .mark '|')
    (h' : Reads fin .alternatives ls₂ ts) : Reads fin .alternatives (ls₁ ++ l :: ls₂) (t :: ts) := by
  intro r hb
  obtain ⟨t', ht, hm⟩ := h (l :: ls₂ ++ r) (before_cons (by rw [hl]; decide))
  obtain ⟨u, r₀, us, rfl, hm', hms⟩ := h' r hb
  obtain ⟨rfl, _⟩ := List.cons.inj ht
  refine ⟨_, _, _, rfl, by rw [List.append_assoc]; exact hm, ?_⟩
  exact gives_members.mpr (.inr ⟨l, ls₂ ++ r, u, r₀, us, rfl, hl, hm', hms, rfl⟩)

theorem product (hl : l.token = .mark '(') (h : Reads fin .list ls ts)
    (hclose : b.token = .mark ')') : Reads fin .plain (l :: ls ++ [b]) [.product ts] := by
  intro r hb
  have hlist := h ')' b r (.inl rfl) hclose
  refine ⟨_, rfl, gives_of_took ?_⟩
  simpa using Took.product hl hlist (hb.not_starts (by decide))

theorem tuple (hl : l.token = .name tupleName) (ha : a.token = .mark '(')
    (h : Reads fin .list ls ts) (hclose : b.token = .mark ')') :
    Reads fin .plain (l :: a :: ls ++ [b]) [.tuple ts] := by
  intro r _
  have hlist := h ')' b r (.inl rfl) hclose
  refine ⟨_, rfl, gives_of_took ?_⟩
  simpa using Took.tuple hl ha hlist

theorem name (hl : l.token = .name n) (happ : Applied n [] t) : Reads fin .plain [l] [t] := by
  intro r hb
  refine ⟨_, rfl, gives_of_took (.named hl ?_ ?_ happ)⟩
  · exact fun hn => hb.not_starts (by decide) hn.2
  · exact gives_arguments.mpr (.inl ⟨hb.not_starts (by decide), rfl, rfl⟩)

theorem applied (hl : l.token = .name n) (ha : a.token = .mark '<') (h : Reads fin .list ls ts)
    (hclose : b.token = .mark '>') (happ : Applied n ts t) :
    Reads fin .plain (l :: a :: ls ++ [b]) [t] := by
  intro r _
  have hlist := h '>' b r (.inr rfl) hclose
  have hargs : Gives (arguments fin (a :: (ls ++ b :: r))) ts r :=
    gives_arguments.mpr (.inr ⟨a, _, rfl, ha, hlist⟩)
  refine ⟨_, rfl, gives_of_took ?_⟩
  simpa using Took.named hl (by simp [Starts, ha]) hargs happ

theorem function (hl : l.token = .mark '(') (h : Reads fin .list ls₁ ts)
    (hclose : b.token = .mark ')') (ha : a.token = .arrow) (h' : Reads fin .union ls₂ [t]) :
    Reads fin .arrow (l :: ls₁ ++ b :: a :: ls₂) [.func ts t] := by
  intro r hb
  obtain ⟨t', ht, hu⟩ := h' r hb
  obtain ⟨rfl, _⟩ := List.cons.inj ht
  have hlist := h ')' b (a :: (ls₂ ++ r)) (.inl rfl) hclose
  refine ⟨_, rfl, gives_of_took ?_⟩
  simpa using Took.function hl hlist ha hu

theorem item (h : Reads fin .union ls [t]) : Reads fin .items ls [t] := by
  intro c l r hc hl
  obtain ⟨t', ht, hu⟩ := h (l :: r) (before_cons (by rw [hl]; exact mark_mem_closing hc))
  obtain ⟨rfl, _⟩ := List.cons.inj ht
  refine gives_items.mpr ⟨_, l :: r, hu, .inr ⟨?_, l, rfl, hl, rfl⟩⟩
  rcases hc with rfl | rfl <;> simp [Starts, hl]

theorem comma (h : Reads fin .union ls₁ [t]) (ha : a.token = .mark ',')
    (h' : Reads fin .items ls₂ ts) : Reads fin .items (ls₁ ++ a :: ls₂) (t :: ts) := by
  intro c l r hc hl
  obtain ⟨t', ht, hu⟩ := h (a :: ls₂ ++ l :: r) (before_cons (by rw [ha]; decide))
  obtain ⟨rfl, _⟩ := List.cons.inj ht
  have hi := h' c l r hc hl
  rw [List.append_assoc]
  exact gives_items.mpr ⟨_, _, hu, .inl ⟨a, ls₂ ++ l :: r, _, rfl, ha, hi, rfl⟩⟩

end Reads

theorem reads_of_derives (fin : Nat) (h : Derives p us ts) :
    ∀ ls, tokens ls = us → Reads fin p ls ts := by
  induction h with
  | single _ ih => exact fun ls hls => (ih ls hls).single
  | sum _ ih => exact fun ls hls => (ih ls hls).sum
  | lastPlain _ ih =>
      intro ls hls
      exact reads_alternatives_of_member fun r hb => ih ls hls r hb.bar
  | lastArrow _ ih =>
      intro ls hls
      exact reads_alternatives_of_member fun r hb => ih ls hls r hb
  | alternative _ _ ih ih' =>
      intro ls hls
      obtain ⟨ls₁, l, ls₂, rfl, h₁, hl, h₂⟩ := split_tokens hls
      exact (ih ls₁ h₁).alternative hl (ih' ls₂ h₂)
  | product _ ih =>
      intro ls hls
      obtain ⟨ls', b, rfl, h', hclose⟩ := split_last hls
      obtain ⟨l, ls₁, rfl, hl, h₁⟩ := List.map_eq_cons_iff.mp h'
      exact .product hl (ih ls₁ h₁) hclose
  | quoted hs =>
      intro ls hls r _
      obtain ⟨l, rfl, hl⟩ := List.map_eq_singleton_iff.mp hls
      exact ⟨_, rfl, gives_of_took (.quoted hl hs)⟩
  | tuple _ ih =>
      intro ls hls
      obtain ⟨ls', b, rfl, h', hclose⟩ := split_last hls
      obtain ⟨l, ls'', rfl, hl, h''⟩ := List.map_eq_cons_iff.mp h'
      obtain ⟨a, ls₁, rfl, ha, h₁⟩ := List.map_eq_cons_iff.mp h''
      exact .tuple hl ha (ih ls₁ h₁) hclose
  | name happ =>
      intro ls hls
      obtain ⟨l, rfl, hl⟩ := List.map_eq_singleton_iff.mp hls
      exact .name hl happ
  | applied _ happ ih =>
      intro ls hls
      obtain ⟨ls', b, rfl, h', hclose⟩ := split_last hls
      obtain ⟨l, ls'', rfl, hl, h''⟩ := List.map_eq_cons_iff.mp h'
      obtain ⟨a, ls₁, rfl, ha, h₁⟩ := List.map_eq_cons_iff.mp h''
      exact .applied hl ha (ih ls₁ h₁) hclose happ
  | function _ _ ih ih' =>
      intro ls hls
      obtain ⟨ls', b, ls'', rfl, h', hclose, h''⟩ := split_tokens hls
      obtain ⟨l, ls₁, rfl, hl, h₁⟩ := List.map_eq_cons_iff.mp h'
      obtain ⟨a, ls₂, rfl, ha, h₂⟩ := List.map_eq_cons_iff.mp h''
      exact .function hl (ih ls₁ h₁) hclose ha (ih' ls₂ h₂)
  | empty =>
      intro ls hls c l r _ hl
      obtain rfl := List.map_eq_nil_iff.mp hls
      exact gives_list.mpr (.inl ⟨l, rfl, hl, rfl⟩)
  | filled hd ih =>
      intro ls hls c l r hc hl
      subst hls
      exact gives_list.mpr (.inr ⟨not_starts_of_opens hd hc, ih ls rfl c l r hc hl⟩)
  | item _ ih => exact fun ls hls => (ih ls hls).item
  | comma _ _ ih ih' =>
      intro ls hls
      obtain ⟨ls₁, a, ls₂, rfl, h₁, ha, h₂⟩ := split_tokens hls
      exact (ih ls₁ h₁).comma ha (ih' ls₂ h₂)

end completeness

theorem whole_eq_ok : whole fin ls = .ok t ↔ Gives (union fin ls) t [] := by
  unfold whole Gives
  split
  next he => simp [he]
  next u h he =>
    have hpos : 0 < ls.length := h
    simp [he, hpos]
  next u l r h he => simp [he]

theorem whole_iff_derives (fin : Nat) : whole fin ls = .ok t ↔ Derives .union (tokens ls) [t] := by
  rw [whole_eq_ok]
  constructor
  · intro hg
    obtain ⟨ts, hts, hd, _⟩ := (soundBelow fin (ls.length + 1)).union (Nat.lt_succ_self _) hg
    rw [hts]
    simpa [tokens] using hd
  · intro hd
    obtain ⟨u, hu, hg⟩ := reads_of_derives fin hd ls rfl [] (by simp [Before])
    obtain ⟨rfl, _⟩ := List.cons.inj hu
    rwa [List.append_nil] at hg

end Parse

theorem parse_eq_ok {src : String} {t : Ty} :
    parse src = .ok t ↔ Derives .union (Parse.tokens (lex 0 src.toList)) [t] := by
  rw [← Parse.whole_iff_derives src.toList.length, parse]
  split <;> simp [*]

theorem denotes_iff_derives_lex {src : String} {t : Ty} :
    Denotes src t ↔ Derives .union (Parse.tokens (lex 0 src.toList)) [t] := by
  constructor
  · rintro ⟨tokens, hs, hd⟩
    rw [Parse.tokens, lex_of_spelled hs hd.isChain 0]
    exact hd
  · intro hd
    refine ⟨_, spelled_lex 0 _ ?_, hd⟩
    exact fun l hl => hd.proper _ (List.mem_map_of_mem hl)

theorem parse_accepts_exactly : (∀ src t, parse src = .ok t ↔ Denotes src t) ∧
    ∀ src t u, Denotes src t → Denotes src u → t = u := by
  have hparse : ∀ src t, parse src = .ok t ↔ Denotes src t := fun src t =>
    parse_eq_ok.trans denotes_iff_derives_lex.symm
  refine ⟨hparse, fun src t u ht hu => ?_⟩
  have he : Except.ok t = Except.ok u := ((hparse src t).mpr ht).symm.trans ((hparse src u).mpr hu)
  exact Except.ok.inj he

end Toolchain.Ty

import Mathlib.Data.List.TakeWhile
import Toolchain.Proofs.Ty.Grammar

namespace Toolchain

namespace Text

def Ranges.apart (r s : Ranges) : Bool := r.all fun p => s.all fun q => p.2 < q.1 || q.2 < p.1

theorem Ranges.not_has_of_apart {r s : Ranges} (h : r.apart s = true) {c : Char}
    (hc : r.has c = true) : s.has c = false := by
  obtain ⟨p, hp, hlo, hhi⟩ := (Ranges.has_iff r c).mp hc
  rw [Bool.eq_false_iff]
  intro hs
  obtain ⟨q, hq, hlo', hhi'⟩ := (Ranges.has_iff s c).mp hs
  have hpq := List.all_eq_true.mp (List.all_eq_true.mp h p hp) q hq
  simp only [Bool.or_eq_true, decide_eq_true_eq] at hpq
  omega

theorem isLetter_of_isBlank {c : Char} (h : isBlank c = true) : isLetter c = false :=
  Ranges.not_has_of_apart (by decide +kernel : blankRanges.apart letterRanges = true) h

theorem isDigit_of_isBlank {c : Char} (h : isBlank c = true) : isDigit c = false :=
  Ranges.not_has_of_apart (by decide +kernel : blankRanges.apart digitRanges = true) h

end Text

namespace Ty

open Text

variable {c : Char} {cs rest : List Char} {token : Token} {tokens : List Token}

theorem isNameChar_of_isBlank (h : isBlank c = true) : isNameChar c = false := by
  have hne : ∀ d, isBlank d = false → (c == d) = false := by
    intro d hd
    rw [beq_eq_false_iff_ne]
    rintro rfl
    rw [h] at hd
    exact absurd hd (by simp)
  rw [isNameChar, hne '_' (by decide), hne '.' (by decide), isLetter_of_isBlank h,
    isDigit_of_isBlank h]
  rfl

theorem isNameChar_of_isNameStart (h : isNameStart c = true) : isNameChar c = true := by
  rw [isNameStart, Bool.or_eq_true] at h
  rcases h with h | h <;> simp [isNameChar, h]

theorem isBlank_of_isNameStart (h : isNameStart c = true) : isBlank c = false := by
  rw [Bool.eq_false_iff]
  intro hb
  have hn := isNameChar_of_isNameStart h
  rw [isNameChar_of_isBlank hb] at hn
  exact absurd hn (by simp)

theorem class_of_mem_marks : ∀ c ∈ marks, isBlank c = false ∧ c ≠ '\'' ∧ isNameStart c = false ∧
    isNameChar c = false ∧ c ≠ '-' := by
  intro c hc
  simp only [marks, List.mem_cons, List.not_mem_nil, or_false] at hc
  rcases hc with rfl | rfl | rfl | rfl | rfl | rfl <;> decide +kernel

theorem isNameStart_quote : isNameStart '\'' = false := by decide +kernel

theorem isNameStart_dash : isNameStart '-' = false := by decide +kernel

theorem halts_dropWhile (cs : List Char) : Halts (cs.dropWhile isNameChar) := by
  intro c hc
  have h := List.head?_dropWhile_not isNameChar cs
  rw [hc] at h
  simpa using h

theorem Spelled.blank (hb : isBlank c = true) (h : Spelled cs tokens) :
    Spelled (c :: cs) tokens := by
  cases h with
  | done hws => exact .done (List.forall_mem_cons.mpr ⟨hb, hws⟩)
  | @more ws w rest _ _ hws hw hn hr =>
      exact .more (List.forall_mem_cons.mpr ⟨hb, hws⟩) hw hn hr

theorem Spelled.next (hw : Written token cs) (hn : ∀ s, token = .name s → Halts rest)
    (hr : Spelled rest tokens) : Spelled (cs ++ rest) (token :: tokens) :=
  @Spelled.more [] cs rest token tokens (fun _ h => nomatch h) hw hn hr

theorem spelled_lex (pos : Nat) (cs : List Char) (hp : ∀ l ∈ lex pos cs, l.token.Proper) :
    Spelled cs ((lex pos cs).map (·.token)) := by
  fun_induction lex pos cs with
  | case1 => exact .done (fun _ h => nomatch h)
  | case2 pos c rest hb ih => exact (ih hp).blank hb
  | case3 pos rest text _ ih =>
      obtain ⟨hv, hp⟩ := List.forall_mem_cons.mp hp
      have hne : text ≠ [] := fun he => hv (by rw [he])
      have hw := Written.quoted hne fun _ => List.mem_takeWhile_imp
      have h := Spelled.next hw (fun _ he => nomatch he) (ih hp)
      rwa [List.cons_append, List.takeWhile_append_dropWhile] at h
  | case4 pos c rest _ _ hs text ih =>
      obtain ⟨_, hp⟩ := List.forall_mem_cons.mp hp
      have hw := @Written.name c (rest.takeWhile isNameChar) hs fun _ => List.mem_takeWhile_imp
      have h := Spelled.next hw (fun _ _ => halts_dropWhile rest) (ih hp)
      rwa [List.cons_append, List.takeWhile_append_dropWhile] at h
  | case5 pos rest _ _ _ ih =>
      obtain ⟨_, hp⟩ := List.forall_mem_cons.mp hp
      exact Spelled.next .arrow (fun _ he => nomatch he) (ih hp)
  | case6 pos c rest _ _ _ _ ih =>
      obtain ⟨hm, hp⟩ := List.forall_mem_cons.mp hp
      exact Spelled.next (.mark hm) (fun _ he => nomatch he) (ih hp)

theorem lex_blank (hb : isBlank c = true) (pos : Nat) (cs : List Char) :
    lex pos (c :: cs) = lex (pos + 1) cs := by
  rw [lex.eq_def]
  exact if_pos hb

theorem lex_quote (pos : Nat) (cs : List Char) : lex pos ('\'' :: cs) =
    ⟨pos, pos + 1 + (cs.takeWhile isNameChar).length,
      .variable (String.ofList (cs.takeWhile isNameChar))⟩ ::
      lex (pos + 1 + (cs.takeWhile isNameChar).length) (cs.dropWhile isNameChar) := by
  rw [lex.eq_def]
  exact (if_neg (by decide)).trans (if_pos rfl)

theorem lex_name (hs : isNameStart c = true) (pos : Nat) (cs : List Char) : lex pos (c :: cs) =
    ⟨pos, pos + 1 + (cs.takeWhile isNameChar).length,
      .name (String.ofList (c :: cs.takeWhile isNameChar))⟩ ::
      lex (pos + 1 + (cs.takeWhile isNameChar).length) (cs.dropWhile isNameChar) := by
  have hb : ¬ isBlank c = true := by simp [isBlank_of_isNameStart hs]
  have hq : c ≠ '\'' := by
    rintro rfl
    rw [isNameStart_quote] at hs
    exact absurd hs (by simp)
  rw [lex.eq_def]
  exact (if_neg hb).trans ((if_neg hq).trans (if_pos hs))

theorem lex_arrow (pos : Nat) (cs : List Char) :
    lex pos ('-' :: '>' :: cs) = ⟨pos, pos + 2, .arrow⟩ :: lex (pos + 2) cs := by
  have hs : ¬ isNameStart '-' = true := by simp [isNameStart_dash]
  rw [lex.eq_def]
  exact (if_neg (by decide)).trans ((if_neg (by decide)).trans (if_neg hs))

theorem lex_mark (hm : c ∈ marks) (pos : Nat) (cs : List Char) :
    lex pos (c :: cs) = ⟨pos, pos + 1, .mark c⟩ :: lex (pos + 1) cs := by
  obtain ⟨hb, hq, hs, _, hd⟩ := class_of_mem_marks c hm
  rw [lex.eq_def]
  refine (if_neg (by simp [hb])).trans ((if_neg hq).trans ((if_neg (by simp [hs])).trans ?_))
  split
  next => exact absurd rfl hd
  next => rfl

theorem lex_blanks {ws : List Char} (hws : ∀ c ∈ ws, isBlank c = true) (pos : Nat)
    (cs : List Char) : lex pos (ws ++ cs) = lex (pos + ws.length) cs := by
  induction ws generalizing pos with
  | nil => simp
  | cons c ws ih =>
      obtain ⟨hc, hws⟩ := List.forall_mem_cons.mp hws
      rw [List.cons_append, lex_blank hc, ih hws, List.length_cons, Nat.add_assoc, Nat.add_comm 1]

theorem takeWhile_halts (hcs : ∀ c ∈ cs, isNameChar c = true) (hr : Halts rest) :
    (cs ++ rest).takeWhile isNameChar = cs ∧ (cs ++ rest).dropWhile isNameChar = rest := by
  rw [List.takeWhile_append_of_pos hcs, List.dropWhile_append_of_pos hcs]
  cases rest with
  | nil => simp
  | cons d rest => simp [hr d rfl]

theorem lex_written (hw : Written token cs)
    (hname : ∀ s, token = .name s → Halts rest) (hvar : ∀ s, token = .variable s → Halts rest)
    (pos : Nat) : ∃ l next, lex pos (cs ++ rest) = l :: lex next rest ∧ l.token = token := by
  cases hw with
  | mark hm => exact ⟨_, _, lex_mark hm pos rest, rfl⟩
  | arrow => exact ⟨_, _, lex_arrow pos rest, rfl⟩
  | @name c cs hs hcs =>
      obtain ⟨ht, hd⟩ := takeWhile_halts hcs (hname _ rfl)
      have h := lex_name hs pos (cs ++ rest)
      rw [ht, hd] at h
      exact ⟨_, _, h, rfl⟩
  | @quoted cs _ hcs =>
      obtain ⟨ht, hd⟩ := takeWhile_halts hcs (hvar _ rfl)
      have h := lex_quote pos (cs ++ rest)
      rw [ht, hd] at h
      exact ⟨_, _, h, rfl⟩

theorem Spelled.halts (h : Spelled cs tokens) (hn : ∀ s, .name s ∉ tokens.head?) : Halts cs := by
  cases h with
  | done hws =>
      intro c hc
      exact isNameChar_of_isBlank (hws c (List.mem_of_mem_head? hc))
  | @more ws w rest token tokens hws hw _ _ =>
      intro c hc
      cases ws with
      | cons d ws =>
          obtain rfl := Option.some.inj hc
          exact isNameChar_of_isBlank (hws d (List.mem_cons_self ..))
      | nil =>
          cases hw with
          | mark hm =>
              obtain rfl := Option.some.inj hc
              exact (class_of_mem_marks _ hm).2.2.2.1
          | arrow =>
              obtain rfl := Option.some.inj hc
              decide +kernel
          | name _ _ => exact absurd rfl (hn _)
          | quoted _ _ =>
              obtain rfl := Option.some.inj hc
              decide +kernel

theorem lex_of_spelled (h : Spelled cs tokens) (hc : tokens.IsChain Token.Apart) (pos : Nat) :
    (lex pos cs).map (·.token) = tokens := by
  induction h generalizing pos with
  | @done ws hws =>
      have h := lex_blanks hws pos []
      rw [List.append_nil] at h
      rw [h, lex.eq_def]
      rfl
  | @more ws w rest token tokens hws hw hn hr ih =>
      have hvar : ∀ s, token = .variable s → Halts rest := by
        rintro s rfl
        refine hr.halts fun n hn => ?_
        exact (List.isChain_cons.mp hc).1 _ hn s n ⟨rfl, rfl⟩
      obtain ⟨l, next, hl, ht⟩ := lex_written hw hn hvar (pos + ws.length)
      rw [List.append_assoc, lex_blanks hws, hl, List.map_cons, ht, ih hc.tail]

end Ty

end Toolchain

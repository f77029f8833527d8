import Toolchain.Proofs.Ty.Lookahead

namespace Toolchain.Ty

namespace Parse

variable {fin : Nat} {cs cs' : List Char} {l : Lexeme} {lead r : List Lexeme} {e : Failure}

def Cause.Tells (cs : List Char) (offset : Nat) : Cause → Prop
  | .missingType => offset = cs.length ∨ cs[offset]? = some '\x00'
  | .missingVariable => ∃ before after, cs = before ++ '\'' :: after ∧
      offset = before.length + 1 ∧ Halts after
  | .unexpected c => cs[offset]? = some c
  | .expected _ got => cs[offset]? = got
  | .arity name n m => n ≠ m ∧ name.toList <:+ cs.take offset

def Failure.Within (cs : List Char) (e : Failure) : Prop :=
  e.offset ≤ cs.length ∧ e.cause.Tells cs e.offset

theorem getElem?_start (h : lex 0 cs = lead ++ l :: r) :
    cs[l.start]? = some l.token.firstChar := by
  obtain ⟨before, rest, after, rfl, hstart, hf, _⟩ := lex_split h
  rw [hstart, Nat.zero_add, List.getElem?_append_right (Nat.le_refl _), Nat.sub_self,
    ← List.head?_eq_getElem?, hf.head?]

theorem start_le (h : lex 0 cs = lead ++ l :: r) : l.start ≤ cs.length :=
  Nat.le_of_lt (List.getElem?_eq_some_iff.mp (getElem?_start h)).1

theorem Stuck.within (hs : Stuck cs.length r e) (h : lex 0 cs = lead ++ r) : e.Within cs := by
  cases hs with
  | ended => exact ⟨Nat.le_refl _, Or.inl rfl⟩
  | unclosed c => exact ⟨Nat.le_refl _, List.getElem?_eq_none (Nat.le_refl _)⟩
  | null hl =>
      have hchar := getElem?_start h
      rw [hl] at hchar
      exact ⟨start_le h, Or.inr hchar⟩
  | unexpected l r => exact ⟨start_le h, getElem?_start h⟩
  | expected hl => exact ⟨start_le h, getElem?_start h⟩
  | @unnamed l r hl =>
      obtain ⟨before, rest, after, hcs, hstart, hf, _⟩ := lex_split h
      rw [hf.text_append, hl] at hcs
      rw [Nat.zero_add] at hstart
      refine ⟨?_, before, after, hcs, by rw [hstart], hf.halts hl⟩
      simp [hcs, hstart, Token.text]

theorem Miscounted.within (hm : Miscounted (lex 0 cs) e) : e.Within cs := by
  obtain ⟨l, hl, name, n, m, ht, hne, rfl⟩ := hm
  obtain ⟨lead, post, h⟩ := List.append_of_mem hl
  obtain ⟨before, rest, after, rfl, hstart, hf, _⟩ := lex_split h
  have hstop := hf.stop_eq
  rw [hstart, Nat.zero_add, ← List.length_append] at hstop
  rw [hf.text_append, ← List.append_assoc]
  refine ⟨by simp [hstop], hne, before, ?_⟩
  rw [hstop, List.take_left, ht]
  rfl

theorem within_of_whole (h : whole cs.length (lex 0 cs) = .error e) : e.Within cs := by
  rcases whole_eq_error h with hm | ⟨lead, r, hls, hstuck, _⟩
  · exact hm.within
  · exact hstuck.within hls

theorem Stuck.start_le_offset (h : Stuck fin (l :: r) e) : l.start ≤ e.offset := by
  cases h with
  | null _ | unexpected _ _ | expected _ => exact Nat.le_refl _
  | unnamed _ => exact Nat.le_succ _

theorem Stuck.offset_eq (h : Stuck fin [] e) : e.offset = fin := by
  cases h <;> rfl

theorem whole_of_take (h : whole cs.length (lex 0 cs) = .error e)
    (hc : ∀ name n m, e.cause ≠ .arity name n m)
    (ht : cs'.take (e.offset + 2) = cs.take (e.offset + 2)) :
    whole cs'.length (lex 0 cs') = .error e := by
  rcases whole_eq_error h with ⟨_, _, name, n, m, _, _, rfl⟩ | ⟨lead, r, hls, hstuck, hsame⟩
  · exact absurd rfl (hc name n m)
  cases r with
  | nil =>
      -- the failure is at the end of the text, so there is nothing else the other text could be
      have hend := hstuck.offset_eq
      have hfull : cs.take (e.offset + 2) = cs := List.take_of_length_le (by omega)
      rw [hfull] at ht
      have hlen := congrArg List.length ht
      rw [List.length_take] at hlen
      have hfull' : cs'.take (e.offset + 2) = cs' := List.take_of_length_le (by omega)
      rwa [hfull'.symm.trans ht]
  | cons l r =>
      have hle := hstuck.start_le_offset
      have hl : cs'.take (l.start + 2) = cs.take (l.start + 2) := by
        have := congrArg (List.take (l.start + 2)) ht
        rwa [List.take_take, List.take_take, Nat.min_eq_left (by omega)] at this
      obtain ⟨l', post', hlex, halike⟩ := lex_of_take hls hl
      rw [hlex]
      exact hsame cs'.length (l' :: post') halike

theorem named_cases (name : String) (stop : Nat) (args : List Ty) :
    (∃ t, named name stop args = .ok t ∧ Applied name args t) ∨
      ∃ n, n ≠ args.length ∧ named name stop args = .error ⟨stop, .arity name n args.length⟩ := by
  cases ho : ofName name args with
  | ok t => exact .inl ⟨t, by rw [named, ho], ofName_eq_ok.mp ho⟩
  | error n => exact .inr ⟨n, ne_of_ofName ho, by rw [named, ho]⟩

end Parse

variable {src : String} {e : ParseError}

theorem parse_eq_error : parse src = .error e ↔
    ∃ f, Parse.whole src.toList.length (lex 0 src.toList) = .error f ∧
      e = ⟨src, f.offset, f.cause⟩ := by
  rw [parse]
  cases Parse.whole src.toList.length (lex 0 src.toList) with
  | ok t => simp
  | error f => simp [eq_comm]

theorem parse_failures_are_local :
    (∀ src, (∃ t, parse src = .ok t) ∨ ∃ e, parse src = .error e ∧ e.input = src ∧
      e.offset ≤ src.toList.length ∧ e.cause.Tells src.toList e.offset) ∧
    (∀ name stop args, (∃ t, Parse.named name stop args = .ok t ∧ Applied name args t) ∨
      ∃ n, n ≠ args.length ∧
        Parse.named name stop args = .error ⟨stop, .arity name n args.length⟩) ∧
    (∀ src e, parse src = .error e → (∀ name n m, e.cause ≠ .arity name n m) → ∀ src' : String,
      src'.toList.take (e.offset + 2) = src.toList.take (e.offset + 2) →
        parse src' = .error ⟨src', e.offset, e.cause⟩) := by
  refine ⟨fun src => ?_, Parse.named_cases, fun src e he hc src' ht => ?_⟩
  · cases hp : parse src with
    | ok t => exact .inl ⟨t, rfl⟩
    | error e =>
        obtain ⟨f, hf, rfl⟩ := parse_eq_error.mp hp
        exact .inr ⟨_, rfl, rfl, Parse.within_of_whole hf⟩
  · obtain ⟨f, hf, rfl⟩ := parse_eq_error.mp he
    exact parse_eq_error.mpr ⟨f, Parse.whole_of_take hf hc ht, rfl⟩

end Toolchain.Ty

import Toolchain.Proofs.Ty.Lexing

namespace Toolchain.Ty

open Text

variable {c : Char} {cs cs' rest rest' after before : List Char} {l : Lexeme} {pos : Nat}
  {lead post : List Lexeme}

section front

def Lone (c : Char) (rest : List Char) : Prop :=
  isBlank c = false ∧ c ≠ '\'' ∧ isNameStart c = false ∧ ¬ (c = '-' ∧ rest.head? = some '>')

inductive Fronts (pos : Nat) : List Char → Lexeme → List Char → Prop
  | quoted (rest : List Char) : Fronts pos ('\'' :: rest)
      ⟨pos, pos + 1 + (rest.takeWhile isNameChar).length,
        .variable (String.ofList (rest.takeWhile isNameChar))⟩ (rest.dropWhile isNameChar)
  | name {c : Char} (rest : List Char) : isNameStart c = true → Fronts pos (c :: rest)
      ⟨pos, pos + 1 + (rest.takeWhile isNameChar).length,
        .name (String.ofList (c :: rest.takeWhile isNameChar))⟩ (rest.dropWhile isNameChar)
  | arrow (rest : List Char) : Fronts pos ('-' :: '>' :: rest) ⟨pos, pos + 2, .arrow⟩ rest
  | mark {c : Char} {rest : List Char} : Lone c rest →
      Fronts pos (c :: rest) ⟨pos, pos + 1, .mark c⟩ rest

theorem lex_nil (pos : Nat) : lex pos [] = [] := by
  rw [lex.eq_def]

theorem lex_lone (h : Lone c rest) (pos : Nat) :
    lex pos (c :: rest) = ⟨pos, pos + 1, .mark c⟩ :: lex (pos + 1) rest := by
  obtain ⟨hb, hq, hs, ha⟩ := h
  rw [lex.eq_def]
  refine (if_neg (by simp [hb])).trans ((if_neg hq).trans ((if_neg (by simp [hs])).trans ?_))
  split
  next => exact absurd ⟨rfl, rfl⟩ ha
  next => rfl

theorem blank_or_fronts (pos : Nat) (c : Char) (rest : List Char) :
    isBlank c = true ∨ ∃ l after, Fronts pos (c :: rest) l after := by
  by_cases hb : isBlank c = true
  · exact .inl hb
  by_cases hq : c = '\''
  · subst hq
    exact .inr ⟨_, _, .quoted rest⟩
  by_cases hs : isNameStart c = true
  · exact .inr ⟨_, _, .name rest hs⟩
  by_cases ha : c = '-' ∧ rest.head? = some '>'
  · obtain ⟨rfl, hr⟩ := ha
    obtain ⟨r, rfl⟩ := List.head?_eq_some_iff.mp hr
    exact .inr ⟨_, _, .arrow r⟩
  · exact .inr ⟨_, _, .mark ⟨by simpa using hb, hq, by simpa using hs, ha⟩⟩

namespace Fronts

theorem start (h : Fronts pos cs l after) : l.start = pos := by
  cases h <;> rfl

theorem lex_eq (h : Fronts pos cs l after) : lex pos cs = l :: lex l.stop after := by
  cases h with
  | quoted rest => exact lex_quote pos rest
  | name rest hs => exact lex_name hs pos rest
  | arrow => exact lex_arrow pos after
  | mark h => exact lex_lone h pos

theorem text_append (h : Fronts pos cs l after) : cs = l.token.text ++ after := by
  cases h with
  | quoted rest => simp [Token.text]
  | name rest hs => simp [Token.text]
  | arrow => rfl
  | mark h => rfl

theorem stop_eq (h : Fronts pos cs l after) : l.stop = pos + l.token.text.length := by
  cases h with
  | quoted rest => simp [Token.text, Nat.add_assoc, Nat.add_comm 1]
  | name rest hs => simp [Token.text, Nat.add_assoc, Nat.add_comm 1]
  | arrow => rfl
  | mark h => rfl

theorem text_head? (h : Fronts pos cs l after) :
    l.token.text.head? = some l.token.firstChar := by
  cases h with
  | quoted rest => rfl
  | name rest hs => simp [Token.text, Token.firstChar, String.front_eq, String.front?_eq]
  | arrow => rfl
  | mark h => rfl

theorem head? (h : Fronts pos cs l after) : cs.head? = some l.token.firstChar := by
  rw [h.text_append, List.head?_append, h.text_head?, Option.some_or]

theorem length_lt (h : Fronts pos cs l after) : after.length < cs.length := by
  have htext : l.token.text ≠ [] := fun he => by simpa [he] using h.text_head?
  have := List.length_pos_iff.mpr htext
  rw [h.text_append, List.length_append]
  omega

theorem halts {s : String} (h : Fronts pos cs l after) (hl : l.token = .variable s) :
    Halts after := by
  cases h with
  | quoted rest => exact halts_dropWhile rest
  | name _ _ | arrow | mark _ => exact absurd hl (by simp)

theorem of_head? (h : Fronts pos cs l after) (hr : rest.head? = after.head?) :
    Fronts pos (l.token.text ++ rest) l rest := by
  cases h with
  | quoted r =>
      have hhalts : Halts rest := fun c hc => halts_dropWhile r c (hr ▸ hc)
      obtain ⟨ht, hd⟩ := takeWhile_halts (fun _ => List.mem_takeWhile_imp) hhalts
      have h : Fronts pos _ _ _ := .quoted (r.takeWhile isNameChar ++ rest)
      rw [ht, hd] at h
      simpa [Token.text] using h
  | @name c r hs =>
      have hhalts : Halts rest := fun c hc => halts_dropWhile r c (hr ▸ hc)
      obtain ⟨ht, hd⟩ := takeWhile_halts (fun _ => List.mem_takeWhile_imp) hhalts
      have h : Fronts pos _ _ _ := .name (r.takeWhile isNameChar ++ rest) hs
      rw [ht, hd] at h
      simpa [Token.text] using h
  | arrow => exact .arrow rest
  | mark h => exact .mark ⟨h.1, h.2.1, h.2.2.1, fun ha => h.2.2.2 ⟨ha.1, hr.symm.trans ha.2⟩⟩

end Fronts

theorem lex_induction {motive : Nat → List Char → Prop} (nil : ∀ pos, motive pos [])
    (blank : ∀ pos c rest, isBlank c = true → motive (pos + 1) rest → motive pos (c :: rest))
    (front : ∀ pos cs l after, Fronts pos cs l after → motive l.stop after → motive pos cs)
    (pos : Nat) (cs : List Char) : motive pos cs := by
  induction hk : cs.length using Nat.strong_induction_on generalizing pos cs with
  | h k ih =>
      cases cs with
      | nil => exact nil pos
      | cons c rest =>
          rw [List.length_cons] at hk
          rcases blank_or_fronts pos c rest with hb | ⟨l, after, hf⟩
          · exact blank pos c rest hb (ih rest.length (by omega) (pos + 1) rest rfl)
          · have := hf.length_lt
            rw [List.length_cons] at this
            exact front pos (c :: rest) l after hf (ih after.length (by omega) l.stop after rfl)

theorem lex_split (h : lex pos cs = lead ++ l :: post) :
    ∃ before rest after, cs = before ++ rest ∧ l.start = pos + before.length ∧
      Fronts l.start rest l after ∧
      ∀ rest', rest'.head? = rest.head? → lex pos (before ++ rest') = lead ++ lex l.start rest' := by
  induction pos, cs using lex_induction generalizing lead with
  | nil pos => exact absurd (lex_nil pos ▸ h) (by simp)
  | blank pos c cs hb ih =>
      rw [lex_blank hb] at h
      obtain ⟨before, rest, after, rfl, hstart, hf, hlex⟩ := ih h
      refine ⟨c :: before, rest, after, rfl, by rw [hstart, List.length_cons]; omega, hf, ?_⟩
      intro rest' hr
      rw [List.cons_append, lex_blank hb, hlex rest' hr]
  | front pos cs x after hx ih =>
      rw [hx.lex_eq] at h
      cases lead with
      | nil =>
          obtain ⟨rfl, _⟩ := List.cons.inj h
          have hs := hx.start
          exact ⟨[], cs, after, rfl, by simpa using hs, by rwa [hs], fun rest' _ => by simp [hs]⟩
      | cons y lead =>
          obtain ⟨rfl, htail⟩ := List.cons.inj h
          obtain ⟨before, rest, after', rfl, hstart, hf, hlex⟩ := ih htail
          refine ⟨x.token.text ++ before, rest, after', ?_, ?_, hf, ?_⟩
          · rw [hx.text_append, List.append_assoc]
          · rw [hstart, hx.stop_eq, List.length_append, Nat.add_assoc]
          · intro rest' hr
            have hhead : (before ++ rest').head? = (before ++ rest).head? := by
              rw [List.head?_append, List.head?_append, hr]
            rw [List.append_assoc, (hx.of_head? hhead).lex_eq, hlex rest' hr, List.cons_append]

end front

section alike

inductive Token.Alike : Token → Token → Prop
  | same (token : Token) : Alike token token
  | name {s s' : String} : s'.front = s.front → Alike (.name s) (.name s')
  | variable {s s' : String} : s ≠ "" → s' ≠ "" → Alike (.variable s) (.variable s')

def Token.Sign : Token → Prop
  | .mark _ | .arrow => True
  | .name _ | .variable _ => False

theorem Token.Alike.firstChar_eq {a b : Token} (h : a.Alike b) : b.firstChar = a.firstChar := by
  cases h with
  | same => rfl
  | name hf => exact hf
  | «variable» => rfl

theorem Token.Alike.eq_iff {a b token : Token} (h : a.Alike b) (ht : token.Sign) :
    b = token ↔ a = token := by
  cases h with
  | same => rfl
  | name _ | «variable» _ _ => cases token <;> simp_all [Token.Sign]

theorem Token.Alike.eq_unnamed {token : Token} (h : (Token.variable "").Alike token) :
    token = .variable "" := by
  cases h with
  | same => rfl
  | «variable» h => exact absurd rfl h

structure Lexeme.Alike (l l' : Lexeme) : Prop where
  start : l'.start = l.start
  token : l.token.Alike l'.token

theorem eq_cons_of_take_two (h : cs.take 2 = (c :: rest).take 2) :
    ∃ rest', cs = c :: rest' ∧ rest'.head? = rest.head? := by
  cases cs with
  | nil => simp at h
  | cons d cs =>
      simp only [List.take_succ_cons, List.cons.injEq] at h
      exact ⟨cs, by rw [h.1], by simpa [List.head?_take] using congrArg List.head? h.2⟩

theorem takeWhile_eq_nil_iff_head? {p : Char → Bool} :
    rest.takeWhile p = [] ↔ ∀ c ∈ rest.head?, p c = false := by
  cases rest with
  | nil => simp
  | cons c rest => simp [List.takeWhile_cons]

theorem Fronts.alike (h : Fronts pos cs l after) (ht : cs'.take 2 = cs.take 2) :
    ∃ l' after', Fronts pos cs' l' after' ∧ l.Alike l' := by
  cases h with
  | quoted rest =>
      obtain ⟨rest', rfl, hr⟩ := eq_cons_of_take_two ht
      refine ⟨_, _, .quoted rest', rfl, ?_⟩
      have hnil : rest'.takeWhile isNameChar = [] ↔ rest.takeWhile isNameChar = [] := by
        rw [takeWhile_eq_nil_iff_head?, takeWhile_eq_nil_iff_head?, hr]
      by_cases he : rest.takeWhile isNameChar = []
      · rw [he, hnil.mpr he]
        exact .same _
      · exact .variable (by simpa using he) (by simpa using hnil.not.mpr he)
  | name rest hs =>
      obtain ⟨rest', rfl, _⟩ := eq_cons_of_take_two ht
      refine ⟨_, _, .name rest' hs, rfl, .name ?_⟩
      simp [String.front_eq, String.front?_eq]
  | arrow =>
      obtain ⟨rest', rfl, hr⟩ := eq_cons_of_take_two ht
      obtain ⟨r, rfl⟩ := List.head?_eq_some_iff.mp hr
      exact ⟨_, _, .arrow r, rfl, .same _⟩
  | mark h =>
      obtain ⟨rest', rfl, hr⟩ := eq_cons_of_take_two ht
      exact ⟨_, _, .mark ⟨h.1, h.2.1, h.2.2.1, by rw [hr]; exact h.2.2.2⟩, rfl, .same _⟩

theorem lex_of_take (h : lex 0 cs = lead ++ l :: post)
    (ht : cs'.take (l.start + 2) = cs.take (l.start + 2)) :
    ∃ l' post', lex 0 cs' = lead ++ l' :: post' ∧ l.Alike l' := by
  obtain ⟨before, rest, after, rfl, hstart, hf, hlex⟩ := lex_split h
  rw [Nat.zero_add] at hstart
  rw [hstart, List.take_length_add_append] at ht
  obtain ⟨rest', rfl⟩ : before <+: cs' :=
    ((List.prefix_append before _).trans (ht ▸ List.take_prefix _ cs'))
  rw [List.take_length_add_append, List.append_cancel_left_eq] at ht
  obtain ⟨l', after', hf', halike⟩ := hf.alike ht
  have hhead : rest'.head? = rest.head? := by
    simpa [List.head?_take] using congrArg List.head? ht
  exact ⟨l', lex l'.stop after', by rw [hlex rest' hhead, hf'.lex_eq], halike⟩

end alike

end Toolchain.Ty

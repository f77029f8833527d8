import Mathlib.Data.List.TakeWhile
import Toolchain.Ty.Encoding

namespace Toolchain

namespace Encoding

variable {m n : Nat} {c d e : UInt8} {x y : List UInt8}

def unmark (b : UInt8) : Char := Char.ofNat b.toNat

theorem unmark_mark {c : Char} (hc : c.toNat < 256) : unmark (mark c) = c := by
  have hb : (mark c).toNat = c.toNat := Nat.mod_eq_of_lt hc
  rw [unmark, hb, Char.ofNat_toNat]

theorem toNat_lt_of_isDigit {c : Char} (hc : c.isDigit = true) : c.toNat < 256 := by
  have h := (Char.isDigit_iff_toNat.mp hc).2
  have h9 : '9'.toNat < 256 := by decide
  omega

theorem isDigit_of_mem_toDigits {c : Char} (hc : c ∈ Nat.toDigits 10 n) : c.isDigit = true :=
  Nat.isDigit_of_mem_toDigits (by decide) (by decide) hc

theorem map_unmark_number (n : Nat) : (number n).map unmark = Nat.toDigits 10 n := by
  rw [number, List.map_map]
  refine (List.map_congr_left fun c hc => ?_).trans (List.map_id _)
  exact unmark_mark (toNat_lt_of_isDigit (isDigit_of_mem_toDigits hc))

theorem number_injective (h : number m = number n) : m = n := by
  have hd := congrArg (List.map unmark) h
  rw [map_unmark_number, map_unmark_number] at hd
  have hv := congrArg (Nat.ofDigitChars 10 · 0) hd
  have h10 : (1 : Nat) < 10 := by decide
  simpa only [Nat.ofDigitChars_toDigits h10 (Nat.le_refl 10)] using hv

def isDigitByte (b : UInt8) : Bool := (unmark b).isDigit

theorem isDigitByte_of_mem_number (hc : c ∈ number n) : isDigitByte c = true := by
  have hm : unmark c ∈ (number n).map unmark := List.mem_map_of_mem hc
  rw [map_unmark_number] at hm
  exact isDigit_of_mem_toDigits hm

theorem number_append_inj (hd : isDigitByte d = false) (he : isDigitByte e = false)
    (h : number m ++ d :: x = number n ++ e :: y) : m = n ∧ d = e ∧ x = y := by
  have hnumber : number m = number n := by
    have ht := congrArg (List.takeWhile isDigitByte) h
    rw [List.takeWhile_append_of_pos fun _ => isDigitByte_of_mem_number,
      List.takeWhile_append_of_pos fun _ => isDigitByte_of_mem_number] at ht
    simpa [hd, he] using ht
  rw [hnumber, List.append_cancel_left_eq, List.cons.injEq] at h
  exact ⟨number_injective hnumber, h⟩

theorem text_injective {s t : String} (h : text s = text t) : s = t :=
  String.toByteArray_inj.mp (ByteArray.ext (Array.toList_inj.mp h))

theorem length_text (s : String) : (text s).length = s.utf8ByteSize := by
  simp [text]

theorem named_append_inj {s t : String} (h : named c s ++ x = named c t ++ y) :
    s = t ∧ x = y := by
  have hcolon : text ":" = [mark ':'] := rfl
  have hn : number s.utf8ByteSize ++ mark ':' :: (text s ++ x) =
      number t.utf8ByteSize ++ mark ':' :: (text t ++ y) := by
    simpa [named, hcolon] using h
  obtain ⟨hsize, _, htext⟩ := number_append_inj (by decide) (by decide) hn
  have hlen : (text s).length = (text t).length := by rw [length_text, length_text, hsize]
  obtain ⟨hs, hxy⟩ := List.append_inj htext hlen
  exact ⟨text_injective hs, hxy⟩

theorem bracketed_append_inj {body body' : List UInt8}
    (h : bracketed m body ++ x = bracketed n body' ++ y) :
    m = n ∧ body ++ mark ']' :: x = body' ++ mark ']' :: y := by
  have hn : number m ++ mark '[' :: (body ++ mark ']' :: x) =
      number n ++ mark '[' :: (body' ++ mark ']' :: y) := by
    simpa [bracketed] using h
  obtain ⟨hmn, _, hbody⟩ := number_append_inj (by decide) (by decide) hn
  exact ⟨hmn, hbody⟩

end Encoding

open Encoding

theorem Unary.tag_injective {c d : Unary} (h : mark c.tag = mark d.tag) : c = d := by
  revert h
  cases c <;> cases d <;> decide

theorem Binary.tag_injective {c d : Binary} (h : mark c.tag = mark d.tag) : c = d := by
  revert h
  cases c <;> cases d <;> decide

theorem Unary.tag_ne_tag (c : Unary) (d : Binary) : mark c.tag ≠ mark d.tag := by
  cases c <;> cases d <;> decide

namespace Ty

variable {a b : Ty} {as bs : List Ty} {x y : List UInt8}

def lead : Ty → Char
  | .absent => '0'
  | .con _ => 'c'
  | .var _ => 'v'
  | .generic .. => 'g'
  | .product _ => 'p'
  | .sum _ => 's'
  | .tuple _ => 't'
  | .func .. => 'f'
  | .unary .. | .binary .. => 'k'

theorem lead_lt (t : Ty) : t.lead.toNat < 256 := by
  cases t <;> simp [lead]

theorem head?_encode (t : Ty) : t.encode.head? = some (mark t.lead) := by
  cases t <;> rfl

theorem lead_eq_of_append (h : encode a ++ x = encode b ++ y) : a.lead = b.lead := by
  have hh := congrArg List.head? h
  rw [List.head?_append, List.head?_append, head?_encode, head?_encode] at hh
  have hu := congrArg unmark (Option.some.inj hh)
  rwa [unmark_mark a.lead_lt, unmark_mark b.lead_lt] at hu

theorem encodeAll_append_inj (ih : ∀ a ∈ as, ∀ b x y, encode a ++ x = encode b ++ y → a = b ∧ x = y)
    (hlen : as.length = bs.length) (h : encodeAll as ++ x = encodeAll bs ++ y) :
    as = bs ∧ x = y := by
  induction as generalizing bs with
  | nil =>
      obtain rfl := List.eq_nil_of_length_eq_zero hlen.symm
      exact ⟨rfl, h⟩
  | cons a as iha =>
      cases bs with
      | nil => exact absurd hlen (by simp)
      | cons b bs =>
          obtain ⟨iha₀, ihas⟩ := List.forall_mem_cons.mp ih
          rw [encodeAll, encodeAll, List.append_assoc, List.append_assoc] at h
          obtain ⟨rfl, hrest⟩ := iha₀ b _ _ h
          obtain ⟨rfl, hxy⟩ := iha ihas (Nat.succ.inj hlen) hrest
          exact ⟨rfl, hxy⟩

theorem bracketed_encodeAll_inj
    (ih : ∀ a ∈ as, ∀ b x y, encode a ++ x = encode b ++ y → a = b ∧ x = y)
    (h : bracketed as.length (encodeAll as) ++ x = bracketed bs.length (encodeAll bs) ++ y) :
    as = bs ∧ x = y := by
  obtain ⟨hlen, hbody⟩ := bracketed_append_inj h
  obtain ⟨has, hxy⟩ := encodeAll_append_inj ih hlen hbody
  exact ⟨has, (List.cons.inj hxy).2⟩

theorem encode_append_inj (a : Ty) :
    ∀ b x y, encode a ++ x = encode b ++ y → a = b ∧ x = y := by
  -- What follows is left open: behind one component come the bytes of the next.
  induction a with
  | absent =>
      intro b x y h
      have hl := lead_eq_of_append h
      cases b <;> simp [lead] at hl
      exact ⟨rfl, (List.cons.inj h).2⟩
  | con m | var m =>
      intro b x y h
      have hl := lead_eq_of_append h
      cases b <;> simp [lead] at hl
      simpa using named_append_inj h
  | generic m as ih =>
      intro b x y h
      have hl := lead_eq_of_append h
      cases b <;> simp [lead] at hl
      rw [encode, encode, List.append_assoc, List.append_assoc] at h
      obtain ⟨hname, hargs⟩ := named_append_inj h
      obtain ⟨has, hxy⟩ := bracketed_encodeAll_inj ih (List.cons.inj hargs).2
      exact ⟨by rw [hname, has], hxy⟩
  | product as ih | sum as ih | tuple as ih =>
      intro b x y h
      have hl := lead_eq_of_append h
      cases b <;> simp [lead] at hl
      simpa using bracketed_encodeAll_inj ih (List.cons.inj h).2
  | func as r ih ihr =>
      intro b x y h
      have hl := lead_eq_of_append h
      cases b <;> simp [lead] at hl
      rw [encode, encode, List.append_assoc, List.append_assoc] at h
      obtain ⟨has, hr⟩ := bracketed_encodeAll_inj ih (List.cons.inj h).2
      obtain ⟨hresult, hxy⟩ := ihr _ x y hr
      exact ⟨by rw [has, hresult], hxy⟩
  | unary c t ih =>
      intro b x y h
      have hl := lead_eq_of_append h
      cases b <;> simp [lead] at hl
      case unary d u =>
        obtain ⟨htag, hb⟩ := List.cons.inj (List.cons.inj h).2
        obtain ⟨ht, hxy⟩ := ih u _ _ (bracketed_append_inj hb).2
        exact ⟨by rw [Unary.tag_injective htag, ht], (List.cons.inj hxy).2⟩
      case binary d u u' =>
        exact absurd (List.cons.inj (List.cons.inj h).2).1 (Unary.tag_ne_tag c d)
  | binary c t t' ih ih' =>
      intro b x y h
      have hl := lead_eq_of_append h
      cases b <;> simp [lead] at hl
      case unary d u =>
        exact absurd (List.cons.inj (List.cons.inj h).2).1.symm (Unary.tag_ne_tag d c)
      case binary d u u' =>
        obtain ⟨htag, hb⟩ := List.cons.inj (List.cons.inj h).2
        have hbody := (bracketed_append_inj hb).2
        rw [List.append_assoc, List.append_assoc] at hbody
        obtain ⟨ht, hsecond⟩ := ih u _ _ hbody
        obtain ⟨ht', hxy⟩ := ih' u' _ _ hsecond
        exact ⟨by rw [Binary.tag_injective htag, ht, ht'], (List.cons.inj hxy).2⟩

theorem encode_append_iff : encode a ++ x = encode b ++ y ↔ beq a b = true ∧ x = y := by
  rw [beq_iff]
  constructor
  · exact encode_append_inj a b x y
  · rintro ⟨rfl, rfl⟩
    rfl

theorem encode_eq_iff : encode a = encode b ↔ beq a b = true := by
  have h := @encode_append_iff a b [] []
  simpa using h

theorem encode_decodes_uniquely (a b : Ty) :
    (∀ x y, encode a ++ x = encode b ++ y ↔ beq a b = true ∧ x = y) ∧
    (encode a = encode b ↔ beq a b = true) ∧
    (a.hash = b.hash ↔
      beq a b = true ∨ encode a ≠ encode b ∧ fnv1a (encode a) = fnv1a (encode b)) := by
  refine ⟨fun x y => encode_append_iff, encode_eq_iff, ?_⟩
  rw [hash_eq_fnv1a, hash_eq_fnv1a, ← encode_eq_iff]
  constructor
  · intro h
    by_cases he : encode a = encode b
    · exact .inl he
    · exact .inr ⟨he, h⟩
  · rintro (he | ⟨_, h⟩)
    · rw [he]
    · exact h

end Ty

end Toolchain

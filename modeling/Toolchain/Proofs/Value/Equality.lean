import Toolchain.Proofs.Value.Matching
import Toolchain.Proofs.Value.WellFormed

namespace Toolchain.Value

variable {a b c v : Value} {n : String} {xs ys : List Value} {fs gs : List (String × Value)}
  {es hs : List (Value × Value)}

def Equals (a b : Value) : Prop := equal a b = true

theorem equalAll_iff : equalAll xs ys = true ↔ List.Forall₂ Equals xs ys := by
  induction xs generalizing ys with
  | nil => cases ys <;> simp [equalAll]
  | cons x xs ih => cases ys <;> simp [equalAll, ih, Equals]

theorem fieldsIn_iff : fieldsIn fs gs = true ↔ ∀ f ∈ fs, fieldIn f.1 f.2 gs = true := by
  induction fs with
  | nil => simp [fieldsIn]
  | cons f fs ih => rw [fieldsIn, Bool.and_eq_true, ih, List.forall_mem_cons]

theorem elementsIn_iff : elementsIn xs ys = true ↔ ∀ x ∈ xs, ∃ y ∈ ys, Equals y x := by
  simp [elementsIn_eq_all, elementIn_eq_any, Equals]

theorem entriesIn_iff : entriesIn es hs = true ↔ ∀ e ∈ es, entryIn e.1 e.2 hs = true := by
  induction es with
  | nil => simp [entriesIn]
  | cons e es ih => rw [entriesIn, Bool.and_eq_true, ih, List.forall_mem_cons]

inductive Matched : Value → Value → Prop
  | absent : Matched .absent .absent
  | none : Matched .none .none
  | int {n : Int} : Matched (.int n) (.int n)
  | float {x y : Double} : x.equal y = true → Matched (.float x) (.float y)
  | bool {b : Bool} : Matched (.bool b) (.bool b)
  | str {s : String} : Matched (.str s) (.str s)
  | ref {i : ObjectId} : Matched (.ref i) (.ref i)
  | type {t : Ty} : Matched (.type t) (.type t)
  | struct {s s' : Stamp} {n : String} {fs gs : List (String × Value)} : fs.length = gs.length →
      (∀ f ∈ fs, fieldIn f.1 f.2 gs = true) → Matched (.struct s n fs) (.struct s' n gs)
  | enum {s s' : Stamp} {n c : String} {xs ys : List Value} : List.Forall₂ Equals xs ys →
      Matched (.enum s n c xs) (.enum s' n c ys)
  | tuple {s s' : Stamp} {xs ys : List Value} : List.Forall₂ Equals xs ys →
      Matched (.tuple s xs) (.tuple s' ys)
  | vec {s s' : Stamp} {xs ys : List Value} : List.Forall₂ Equals xs ys →
      Matched (.vec s xs) (.vec s' ys)
  | set {s s' : Stamp} {xs ys : List Value} : xs.length = ys.length →
      (∀ x ∈ xs, ∃ y ∈ ys, Equals y x) → Matched (.set s xs) (.set s' ys)
  | map {s s' : Stamp} {es hs : List (Value × Value)} : es.length = hs.length →
      (∀ e ∈ es, entryIn e.1 e.2 hs = true) → Matched (.map s es) (.map s' hs)
  | func {s : Stamp} {n n' : String} {ps ps' : List String} {cs cs' : List (String × Value)} :
      Matched (.func s n ps cs) (.func s n' ps' cs')
  | closure {s : Stamp} {ps ps' : List String} {cs cs' : List (String × Value)} :
      Matched (.closure s ps cs) (.closure s ps' cs')
  | builtin {s : Stamp} {n n' : String} {t t' : Ty} : Matched (.builtin s n t) (.builtin s n' t')
  | channel {s : Stamp} {c c' : Nat} {vs vs' : List Value} :
      Matched (.channel s c vs) (.channel s c' vs')
  | task {s : Stamp} {i i' : Nat} {r r' : Value} {e e' : Option String} :
      Matched (.task s i r e) (.task s i' r' e')

theorem matched_of_equal (h : equal a b = true) : Matched a b := by
  unfold equal at h
  split at h
  case h_1 => exact .absent
  case h_2 => exact .none
  case h_3 => exact eq_of_beq h ▸ .int
  case h_4 => exact .float h
  case h_5 => exact eq_of_beq h ▸ .bool
  case h_6 => exact eq_of_beq h ▸ .str
  case h_7 => exact eq_of_beq h ▸ .ref
  case h_8 => exact of_decide_eq_true h ▸ .type
  case h_9 =>
    simp only [Bool.and_eq_true, beq_iff_eq, fieldsIn_iff] at h
    obtain ⟨⟨rfl, hlen⟩, hf⟩ := h
    exact .struct hlen hf
  case h_10 =>
    simp only [Bool.and_eq_true, beq_iff_eq, equalAll_iff] at h
    obtain ⟨⟨rfl, rfl⟩, hxs⟩ := h
    exact .enum hxs
  case h_11 => exact .tuple (equalAll_iff.mp h)
  case h_12 => exact .vec (equalAll_iff.mp h)
  case h_13 =>
    rw [Bool.and_eq_true, beq_iff_eq, elementsIn_iff] at h
    exact .set h.1 h.2
  case h_14 =>
    rw [Bool.and_eq_true, beq_iff_eq, entriesIn_iff] at h
    exact .map h.1 h.2
  case h_15 => exact eq_of_beq h ▸ .func
  case h_16 => exact eq_of_beq h ▸ .closure
  case h_17 => exact eq_of_beq h ▸ .builtin
  case h_18 => exact eq_of_beq h ▸ .channel
  case h_19 => exact eq_of_beq h ▸ .task
  case h_20 => exact absurd h (by simp)

theorem equals_iff_matched : Equals a b ↔ Matched a b := by
  constructor
  · exact matched_of_equal
  · intro h
    cases h <;>
      simp_all [Equals, equal, equalAll_iff, fieldsIn_iff, elementsIn_iff, entriesIn_iff]

section laws

variable {S : Value → Prop}

def FieldEquals (f g : String × Value) : Prop := f.1 = g.1 ∧ Equals f.2 g.2

def EntryEquals (e h : Value × Value) : Prop := Equals e.1 h.1 ∧ Equals e.2 h.2

theorem fieldIn_iff (hgs : (gs.map (·.1)).Nodup) :
    fieldIn n v gs = true ↔ ∃ g ∈ gs, FieldEquals (n, v) g := by
  induction gs with
  | nil => simp [fieldIn]
  | cons g gs ih =>
      rw [List.map_cons, List.nodup_cons] at hgs
      rw [fieldIn, List.exists_mem_cons_iff, ← ih hgs.2]
      by_cases hn : n = g.1
      · have hout : fieldIn n v gs ≠ true := by
          rw [ne_eq, ih hgs.2]
          rintro ⟨g', hg', he, _⟩
          exact hgs.1 (List.mem_map.mpr ⟨g', hg', he.symm.trans hn⟩)
        rw [if_pos hn]
        exact ⟨fun h => .inl ⟨hn, h⟩, fun h => (h.resolve_right hout).2⟩
      · rw [if_neg hn]
        exact ⟨.inr, fun h => h.resolve_left fun he => hn he.1⟩

theorem covers_fields (hgs : (gs.map (·.1)).Nodup) :
    (∀ f ∈ fs, fieldIn f.1 f.2 gs = true) ↔ Covers FieldEquals fs gs :=
  forall₂_congr fun _ _ => fieldIn_iff hgs

theorem covers_elements (h : PerOn S Equals) (hxs : ∀ x ∈ xs, S x) (hys : ∀ y ∈ ys, S y) :
    (∀ x ∈ xs, ∃ y ∈ ys, Equals y x) ↔ Covers Equals xs ys := by
  refine forall₂_congr fun x hx => exists_congr fun y => and_congr_right fun hy => ?_
  exact ⟨h.symm (hys y hy) (hxs x hx), h.symm (hxs x hx) (hys y hy)⟩

theorem entryIn_iff (h : PerOn S Equals) {k : Value} (hk : S k) (hhs : ∀ e ∈ hs, S e.1)
    (hd : hs.Pairwise fun e f => ¬ Equals e.1 f.1) :
    entryIn k v hs = true ↔ ∃ e ∈ hs, EntryEquals (k, v) e := by
  induction hs with
  | nil => simp [entryIn]
  | cons e hs ih =>
      obtain ⟨he, hhs⟩ := List.forall_mem_cons.mp hhs
      obtain ⟨hfar, hd⟩ := List.pairwise_cons.mp hd
      rw [entryIn, List.exists_mem_cons_iff, ← ih hhs hd]
      by_cases hek : equal e.1 k = true
      · have hout : ¬ entryIn k v hs = true := by
          rw [ih hhs hd]
          rintro ⟨f, hf, hkf, _⟩
          exact hfar f hf (h.trans he hk (hhs f hf) hek hkf)
        rw [if_pos hek]
        exact ⟨fun hv => .inl ⟨h.symm he hk hek, hv⟩, fun hv => (hv.resolve_right hout).2⟩
      · rw [if_neg hek]
        exact ⟨.inr, fun hv => hv.resolve_left fun hke => hek (h.symm hk he hke.1)⟩

theorem covers_entries (h : PerOn S Equals) (hes : ∀ e ∈ es, S e.1) (hhs : ∀ e ∈ hs, S e.1)
    (hd : hs.Pairwise fun e f => ¬ Equals e.1 f.1) :
    (∀ e ∈ es, entryIn e.1 e.2 hs = true) ↔ Covers EntryEquals es hs :=
  forall₂_congr fun e he => entryIn_iff h (hes e he) hhs hd

theorem perOn_fields (h : PerOn S Equals) : PerOn (fun f => True ∧ S f.2) FieldEquals :=
  .pair .eq h

theorem perOn_entries (h : PerOn S Equals) : PerOn (fun e => S e.1 ∧ S e.2) EntryEquals :=
  .pair h h

end laws

def Within (n : Nat) (v : Value) : Prop := WellFormed v ∧ sizeOf v < n

namespace Within

variable {m : Nat} {s : Stamp}

theorem of_mem_parts (h : Within (m + 1) a) : ∀ p ∈ a.parts, Within m p := by
  intro p hp
  have hs := sizeOf_lt_of_mem_parts hp
  have ha := h.2
  exact ⟨h.1.of_mem_parts p hp, by omega⟩

theorem fields (h : Within (m + 1) (.struct s n fs)) :
    (∀ f ∈ fs, True ∧ Within m f.2) ∧ fs.Pairwise fun f g => ¬ FieldEquals f g := by
  have hn := List.pairwise_map.mp h.1.names_nodup
  exact ⟨fun f hf => ⟨trivial, h.of_mem_parts _ (List.mem_map_of_mem hf)⟩,
    hn.imp fun hne he => hne he.1⟩

theorem elements (h : Within (m + 1) (.set s xs)) :
    (∀ x ∈ xs, Within m x) ∧ xs.Pairwise fun x y => ¬ Equals x y :=
  ⟨h.of_mem_parts, h.1.elements_distinct.imp fun hne => Bool.eq_false_iff.mp hne⟩

theorem keys (h : Within (m + 1) (.map s es)) : es.Pairwise fun e f => ¬ Equals e.1 f.1 :=
  (List.pairwise_map.mp h.1.keys_distinct).imp fun hne => Bool.eq_false_iff.mp hne

theorem entries (h : Within (m + 1) (.map s es)) :
    (∀ e ∈ es, Within m e.1 ∧ Within m e.2) ∧ es.Pairwise fun e f => ¬ EntryEquals e f := by
  have hparts := List.forall_mem_append.mp h.of_mem_parts
  rw [List.forall_mem_map, List.forall_mem_map] at hparts
  exact ⟨fun e he => ⟨hparts.1 e he, hparts.2 e he⟩, h.keys.imp fun hne he => hne he.1⟩

end Within

section step

variable {m : Nat} {s s' : Stamp} (ih : PerOn (Within m) Equals)
include ih

theorem Within.covers_elements (hx : Within (m + 1) (.set s xs))
    (hy : Within (m + 1) (.set s' ys)) :
    (∀ x ∈ xs, ∃ y ∈ ys, Equals y x) ↔ Covers Equals xs ys :=
  Value.covers_elements ih hx.elements.1 hy.elements.1

theorem Within.covers_entries (he : Within (m + 1) (.map s es)) (hh : Within (m + 1) (.map s' hs)) :
    (∀ e ∈ es, entryIn e.1 e.2 hs = true) ↔ Covers EntryEquals es hs :=
  Value.covers_entries ih (fun e h => (he.entries.1 e h).1) (fun e h => (hh.entries.1 e h).1)
    hh.keys

theorem matched_symm (ha : Within (m + 1) a) (hb : Within (m + 1) b) (h : Matched a b) :
    Matched b a := by
  cases h with
  | absent | none | int | bool | str | ref | type | func | closure | builtin | channel | task =>
      constructor
  | float h => exact .float (by rwa [Double.equal_comm])
  | enum h => exact .enum (ih.ordered.symm ha.of_mem_parts hb.of_mem_parts h)
  | tuple h => exact .tuple (ih.ordered.symm ha.of_mem_parts hb.of_mem_parts h)
  | vec h => exact .vec (ih.ordered.symm ha.of_mem_parts hb.of_mem_parts h)
  | struct hlen h =>
      have hc := (covers_fields hb.1.names_nodup).mp h
      obtain ⟨hlen, hc⟩ := (perOn_fields ih).unordered.symm ha.fields hb.fields ⟨hlen, hc⟩
      exact .struct hlen ((covers_fields ha.1.names_nodup).mpr hc)
  | set hlen h =>
      have hc := (ha.covers_elements ih hb).mp h
      obtain ⟨hlen, hc⟩ := ih.unordered.symm ha.elements hb.elements ⟨hlen, hc⟩
      exact .set hlen ((hb.covers_elements ih ha).mpr hc)
  | map hlen h =>
      have hc := (ha.covers_entries ih hb).mp h
      obtain ⟨hlen, hc⟩ := (perOn_entries ih).unordered.symm ha.entries hb.entries ⟨hlen, hc⟩
      exact .map hlen ((hb.covers_entries ih ha).mpr hc)

theorem matched_trans (ha : Within (m + 1) a) (hb : Within (m + 1) b) (hc : Within (m + 1) c)
    (h : Matched a b) (h' : Matched b c) : Matched a c := by
  cases h with
  | absent | none | int | bool | str | ref | type => exact h'
  | func | closure | builtin | channel | task =>
      cases h'
      constructor
  | float h =>
      cases h' with
      | float h' => exact .float (Double.equal_trans h h')
  | enum h =>
      cases h' with
      | enum h' =>
          exact .enum (ih.ordered.trans ha.of_mem_parts hb.of_mem_parts hc.of_mem_parts h h')
  | tuple h =>
      cases h' with
      | tuple h' =>
          exact .tuple (ih.ordered.trans ha.of_mem_parts hb.of_mem_parts hc.of_mem_parts h h')
  | vec h =>
      cases h' with
      | vec h' => exact .vec (ih.ordered.trans ha.of_mem_parts hb.of_mem_parts hc.of_mem_parts h h')
  | struct hlen h =>
      cases h' with
      | struct hlen' h' =>
          have hab := (covers_fields hb.1.names_nodup).mp h
          have hbc := (covers_fields hc.1.names_nodup).mp h'
          obtain ⟨hlen, hac⟩ := (perOn_fields ih).unordered.trans ha.fields hb.fields hc.fields
            ⟨hlen, hab⟩ ⟨hlen', hbc⟩
          exact .struct hlen ((covers_fields hc.1.names_nodup).mpr hac)
  | set hlen h =>
      cases h' with
      | set hlen' h' =>
          have hab := (ha.covers_elements ih hb).mp h
          have hbc := (hb.covers_elements ih hc).mp h'
          obtain ⟨hlen, hac⟩ := ih.unordered.trans ha.elements hb.elements hc.elements
            ⟨hlen, hab⟩ ⟨hlen', hbc⟩
          exact .set hlen ((ha.covers_elements ih hc).mpr hac)
  | map hlen h =>
      cases h' with
      | map hlen' h' =>
          have hab := (ha.covers_entries ih hb).mp h
          have hbc := (hb.covers_entries ih hc).mp h'
          obtain ⟨hlen, hac⟩ := (perOn_entries ih).unordered.trans ha.entries hb.entries hc.entries
            ⟨hlen, hab⟩ ⟨hlen', hbc⟩
          exact .map hlen ((ha.covers_entries ih hc).mpr hac)

theorem matched_self (ha : Within (m + 1) a) :
    Matched a a ↔ a ≠ .float .nan ∧ ∀ p ∈ a.parts, Equals p p := by
  cases a with
  | float x =>
      have hx : x.equal x = true ↔ Value.float x ≠ .float .nan := by
        rw [Double.equal_self]
        cases x <;> simp [Double.isNaN]
      constructor
      · intro h
        cases h with
        | float h => exact ⟨hx.mp h, List.forall_mem_nil _⟩
      · exact fun h => .float (hx.mpr h.1)
  | enum s n d xs =>
      constructor
      · intro h
        cases h with
        | enum h => exact ⟨by simp, List.forall₂_same.mp h⟩
      · exact fun h => .enum (List.forall₂_same.mpr h.2)
  | tuple s xs =>
      constructor
      · intro h
        cases h with
        | tuple h => exact ⟨by simp, List.forall₂_same.mp h⟩
      · exact fun h => .tuple (List.forall₂_same.mpr h.2)
  | vec s xs =>
      constructor
      · intro h
        cases h with
        | vec h => exact ⟨by simp, List.forall₂_same.mp h⟩
      · exact fun h => .vec (List.forall₂_same.mpr h.2)
  | struct s n fs =>
      have hself := (covers_fields ha.1.names_nodup).trans
        (covers_self (perOn_fields ih) ha.fields.1)
      have hparts : (∀ f ∈ fs, FieldEquals f f) ↔ ∀ p ∈ (struct s n fs).parts, Equals p p := by
        rw [parts, List.forall_mem_map]
        exact forall₂_congr fun f _ => and_iff_right rfl
      rw [← hparts, ← hself]
      constructor
      · intro h
        cases h with
        | struct _ h => exact ⟨by simp, h⟩
      · exact fun h => .struct rfl h.2
  | set s xs =>
      have hself := (ha.covers_elements ih ha).trans (covers_self ih ha.elements.1)
      constructor
      · intro h
        cases h with
        | set _ h => exact ⟨by simp, hself.mp h⟩
      · exact fun h => .set rfl (hself.mpr h.2)
  | map s es =>
      have hself := (ha.covers_entries ih ha).trans (covers_self (perOn_entries ih) ha.entries.1)
      have hparts : (∀ e ∈ es, EntryEquals e e) ↔ ∀ p ∈ (map s es).parts, Equals p p := by
        rw [parts, List.forall_mem_append, List.forall_mem_map, List.forall_mem_map]
        exact forall₂_and
      rw [← hparts, ← hself]
      constructor
      · intro h
        cases h with
        | map _ h => exact ⟨by simp, h⟩
      · exact fun h => .map rfl h.2
  | _ => exact ⟨fun _ => ⟨by simp, List.forall_mem_nil _⟩, fun _ => by constructor⟩

end step

theorem perOn_equals (m : Nat) : PerOn (Within m) Equals := by
  -- Both laws at once: for sets and maps each of them needs the other one for the members.
  induction m with
  | zero => exact ⟨fun h => absurd h.2 (by simp), fun h => absurd h.2 (by simp)⟩
  | succ m ih =>
      constructor
      · intro a b ha hb hab
        rw [equals_iff_matched] at hab ⊢
        exact matched_symm ih ha hb hab
      · intro a b c ha hb hc hab hbc
        rw [equals_iff_matched] at hab hbc ⊢
        exact matched_trans ih ha hb hc hab hbc

theorem perOn_wellFormed : PerOn WellFormed Equals where
  symm {a b} ha hb := by
    have h := perOn_equals (sizeOf a + sizeOf b + 1)
    exact h.symm ⟨ha, by omega⟩ ⟨hb, by omega⟩
  trans {a b c} ha hb hc := by
    have h := perOn_equals (sizeOf a + sizeOf b + sizeOf c + 1)
    exact h.trans ⟨ha, by omega⟩ ⟨hb, by omega⟩ ⟨hc, by omega⟩

theorem equals_self (ha : WellFormed a) :
    Equals a a ↔ a ≠ .float .nan ∧ ∀ p ∈ a.parts, Equals p p := by
  rw [equals_iff_matched]
  exact matched_self (perOn_equals (sizeOf a)) ⟨ha, by omega⟩

inductive Occurs (v : Value) : Value → Prop
  | here : Occurs v v
  | inside {a p : Value} : p ∈ a.parts → Occurs v p → Occurs v a

theorem occurs_iff : Occurs v a ↔ a = v ∨ ∃ p ∈ a.parts, Occurs v p := by
  constructor
  · rintro (_ | ⟨hp, h⟩)
    · exact .inl rfl
    · exact .inr ⟨_, hp, h⟩
  · rintro (rfl | ⟨p, hp, h⟩)
    · exact .here
    · exact .inside hp h

theorem equals_self_iff_no_nan (ha : WellFormed a) : Equals a a ↔ ¬ Occurs (.float .nan) a := by
  induction hm : sizeOf a using Nat.strongRecOn generalizing a with
  | ind m ih =>
      rw [equals_self ha, occurs_iff, not_or]
      refine and_congr_right fun _ => ?_
      simp only [not_exists, not_and]
      refine forall₂_congr fun p hp => ih (sizeOf p) ?_ (ha.of_mem_parts p hp) rfl
      exact hm ▸ sizeOf_lt_of_mem_parts hp

theorem equality_is_partial_equivalence (a b c : Value) (ha : WellFormed a) (hb : WellFormed b)
    (hc : WellFormed c) : equal a b = equal b a ∧
      (equal a b = true → equal b c = true → equal a c = true) ∧
      (equal a a = true ↔ ¬ Occurs (.float .nan) a) := by
  refine ⟨?_, perOn_wellFormed.trans ha hb hc, equals_self_iff_no_nan ha⟩
  exact Bool.eq_iff_iff.mpr ⟨perOn_wellFormed.symm ha hb, perOn_wellFormed.symm hb ha⟩

theorem equality_is_partial_equivalence_sets : ∃ a b c d : Value,
    (WellFormed a ∧ WellFormed b ∧ WellFormed c ∧ WellFormed d) ∧
    (equal a b = true ∧ equal b a = true) ∧ (equal b c = true ∧ equal a c = true) ∧
    (equal a a = true ↔ ¬ Occurs (.float .nan) a) ∧ Occurs (.float .nan) d ∧ equal d d = false := by
  have hone : WellFormed (.int 1) := .atom rfl
  have hfloat : WellFormed (.float .nan) := .atom rfl
  have htuple (s : Stamp) : WellFormed (.tuple s [.absent]) :=
    .tuple (List.forall_mem_singleton.mpr (.atom rfl))
  have ha : WellFormed (.set 0 (Elements.ofList [.int 1, .tuple 1 [.absent]])) :=
    .set (by simp [hone, htuple])
  have hb : WellFormed (.set 2 (Elements.ofList [.tuple 3 [.absent], .int 1])) :=
    .set (by simp [hone, htuple])
  have hc : WellFormed (.set 4 (Elements.ofList [.int 1, .tuple 5 [.absent], .int 1])) :=
    .set (by simp [hone, htuple])
  have hd : WellFormed (.set 6 (Elements.ofList [.float .nan, .float .nan])) :=
    .set (by simp [hfloat])
  have hab : equal (.set 0 (Elements.ofList [.int 1, .tuple 1 [.absent]]))
      (.set 2 (Elements.ofList [.tuple 3 [.absent], .int 1])) = true := by
    simp [Elements.ofList, Elements.add, elementIn, elementsIn, equal, equalAll]
  have hbc : equal (.set 2 (Elements.ofList [.tuple 3 [.absent], .int 1]))
      (.set 4 (Elements.ofList [.int 1, .tuple 5 [.absent], .int 1])) = true := by
    simp [Elements.ofList, Elements.add, elementIn, elementsIn, equal, equalAll]
  have hnan : Occurs (.float .nan) (.set 6 (Elements.ofList [.float .nan, .float .nan])) :=
    .inside (by simp [parts, Elements.ofList, Elements.add, elementIn, equal, Double.equal]) .here
  obtain ⟨hsymm, htrans, hself⟩ := equality_is_partial_equivalence _ _ _ ha hb hc
  obtain ⟨_, _, hself'⟩ := equality_is_partial_equivalence _ _ _ hd hd hd
  exact ⟨_, _, _, _, ⟨ha, hb, hc, hd⟩, ⟨hab, hsymm ▸ hab⟩, ⟨hbc, htrans hab hbc⟩, hself, hnan,
    Bool.eq_false_iff.mpr fun h => hself'.mp h hnan⟩

end Toolchain.Value

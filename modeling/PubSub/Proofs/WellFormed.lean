import Mathlib.Logic.Basic
import Mathlib.Tactic.SplitIfs
import PubSub.Text.Utf8

/-! # Well-formed UTF-8

Numbers are spelled by bit patterns of one to four bytes. A character is spelled
as short as it can be, and neither surrogates nor numbers above `0x10FFFF` are
characters. Decoding accepts the sequences of such spellings and no others, and
encoding is its inverse.
-/

namespace PubSub

namespace Utf8

/-- The bit patterns: every byte after the first one carries six bits. -/
inductive Spells : Nat → Bytes → Prop
  | one {x : Nat} (hx : x < 0x80) : Spells x [.ofNat x]
  | two {x y : Nat} (hx : x < 0x20) (hy : y < 0x40) :
    Spells (x * 0x40 + y) [.ofNat (x + 0xC0), .ofNat (y + 0x80)]
  | three {x y z : Nat} (hx : x < 0x10) (hy : y < 0x40) (hz : z < 0x40) :
    Spells ((x * 0x40 + y) * 0x40 + z) [.ofNat (x + 0xE0), .ofNat (y + 0x80), .ofNat (z + 0x80)]
  | four {x y z u : Nat} (hx : x < 0x08) (hy : y < 0x40) (hz : z < 0x40) (hu : u < 0x40) :
    Spells (((x * 0x40 + y) * 0x40 + z) * 0x40 + u)
      [.ofNat (x + 0xF0), .ofNat (y + 0x80), .ofNat (z + 0x80), .ofNat (u + 0x80)]

/-- The shortest spelling of a number that is neither a surrogate nor above the last character. -/
def IsCharacter (bs : Bytes) : Prop :=
  ∃ n, Spells n bs ∧ (∀ bs', Spells n bs' → bs.length ≤ bs'.length) ∧ n ≤ 0x10FFFF ∧
    ¬ (0xD800 ≤ n ∧ n ≤ 0xDFFF)

/-- One character after the other, none of them cut short. -/
inductive WellFormed : Bytes → Prop
  | nil : WellFormed []
  | cons {bs rest : Bytes} (h : IsCharacter bs) (hrest : WellFormed rest) :
    WellFormed (bs ++ rest)

/-- The number needs all of so many bytes. -/
def Needs (n : Nat) (bs : Bytes) : Prop :=
  bs.length = 1 ∨ bs.length = 2 ∧ 0x80 ≤ n ∨ bs.length = 3 ∧ 0x800 ≤ n ∨
    bs.length = 4 ∧ 0x10000 ≤ n

namespace Spells

variable {n : Nat} {bs bs' : Bytes}

theorem length_mem (h : Spells n bs) : 1 ≤ bs.length ∧ bs.length ≤ 4 := by
  cases h <;> simp

theorem lt (h : Spells n bs) :
    n < 0x80 ∨ 1 < bs.length ∧ n < 0x800 ∨ 2 < bs.length ∧ n < 0x10000 ∨
      bs.length = 4 ∧ n < 0x200000 := by
  cases h with
  | one hx => exact .inl hx
  | two hx hy => exact .inr (.inl ⟨by simp, by omega⟩)
  | three hx hy hz => exact .inr (.inr (.inl ⟨by simp, by omega⟩))
  | four hx hy hz hu => exact .inr (.inr (.inr ⟨rfl, by omega⟩))

theorem exists_two (h : n < 0x800) : ∃ bs, Spells n bs ∧ bs.length = 2 := by
  obtain ⟨x, y, hx, hy, rfl⟩ : ∃ x y, x < 0x20 ∧ y < 0x40 ∧ n = x * 0x40 + y :=
    ⟨n / 0x40, n % 0x40, by omega, by omega, by omega⟩
  exact ⟨_, .two hx hy, rfl⟩

theorem exists_three (h : n < 0x10000) : ∃ bs, Spells n bs ∧ bs.length = 3 := by
  obtain ⟨x, y, z, hx, hy, hz, rfl⟩ : ∃ x y z, x < 0x10 ∧ y < 0x40 ∧ z < 0x40 ∧
      n = (x * 0x40 + y) * 0x40 + z :=
    ⟨n / 0x1000, n / 0x40 % 0x40, n % 0x40, by omega, by omega, by omega, by omega⟩
  exact ⟨_, .three hx hy hz, rfl⟩

/-- A spelling is the shortest one if the number does not fit into fewer bytes. -/
theorem shortest_iff (h : Spells n bs) :
    (∀ bs', Spells n bs' → bs.length ≤ bs'.length) ↔ Needs n bs := by
  unfold Needs
  constructor
  · intro hs
    have hone : n < 0x80 → bs.length ≤ 1 := fun hn => hs _ (.one hn)
    have htwo : n < 0x800 → bs.length ≤ 2 := by
      intro hn
      obtain ⟨bs', h', hl⟩ := exists_two hn
      exact hl ▸ hs bs' h'
    have hthree : n < 0x10000 → bs.length ≤ 3 := by
      intro hn
      obtain ⟨bs', h', hl⟩ := exists_three hn
      exact hl ▸ hs bs' h'
    have hl := h.length_mem
    omega
  · intro hn bs' h'
    have hl := h'.length_mem
    have hlt := h'.lt
    omega

theorem eq_of_length (h : Spells n bs) (h' : Spells n bs') (hl : bs.length = bs'.length) :
    bs = bs' := by
  cases h with
  | one hx =>
    cases h' with
    | one hx' => rfl
    | _ => simp at hl
  | @two x y hx hy =>
    generalize hn : x * 0x40 + y = n at h'
    cases h' with
    | @two x' y' hx' hy' =>
      obtain ⟨rfl, rfl⟩ : x = x' ∧ y = y' := by omega
      rfl
    | _ => simp at hl
  | @three x y z hx hy hz =>
    generalize hn : (x * 0x40 + y) * 0x40 + z = n at h'
    cases h' with
    | @three x' y' z' hx' hy' hz' =>
      obtain ⟨rfl, rfl, rfl⟩ : x = x' ∧ y = y' ∧ z = z' := by omega
      rfl
    | _ => simp at hl
  | @four x y z u hx hy hz hu =>
    generalize hn : ((x * 0x40 + y) * 0x40 + z) * 0x40 + u = n at h'
    cases h' with
    | @four x' y' z' u' hx' hy' hz' hu' =>
      obtain ⟨rfl, rfl, rfl, rfl⟩ : x = x' ∧ y = y' ∧ z = z' ∧ u = u' := by omega
      rfl
    | _ => simp at hl

end Spells

section Bytes

variable {a b : UInt8} {n k : Nat}

theorem isContinuation_iff : isContinuation b ↔ 0x80 ≤ b.toNat ∧ b.toNat ≤ 0xBF := by
  simp [isContinuation, UInt8.le_iff_toNat_le]

theorem isSecondOfThree_iff : isSecondOfThree a b ↔ 0x80 ≤ b.toNat ∧ b.toNat ≤ 0xBF ∧
    (a.toNat = 0xE0 → 0xA0 ≤ b.toNat) ∧ (a.toNat = 0xED → b.toNat ≤ 0x9F) := by
  simp only [isSecondOfThree, ← UInt8.toNat_inj, isContinuation, UInt8.le_iff_toNat_le]
  split_ifs <;> simp at * <;> omega

theorem isSecondOfFour_iff : isSecondOfFour a b ↔ 0x80 ≤ b.toNat ∧ b.toNat ≤ 0xBF ∧
    (a.toNat = 0xF0 → 0x90 ≤ b.toNat) ∧ (a.toNat = 0xF4 → b.toNat ≤ 0x8F) := by
  simp only [isSecondOfFour, ← UInt8.toNat_inj, isContinuation, UInt8.le_iff_toNat_le]
  split_ifs <;> simp at * <;> omega

theorem ofNat_sub_add (h : k ≤ a.toNat) : UInt8.ofNat (a.toNat - k + k) = a := by
  rw [Nat.sub_add_cancel h, UInt8.ofNat_toNat]

theorem toNat_ofNat_of_lt (h : n < 0x100) : (UInt8.ofNat n).toNat = n := by
  rw [UInt8.toNat_ofNat', Nat.mod_eq_of_lt h]

theorem toNat_charOfNat (h : n.isValidChar) : (Char.ofNat n).toNat = n := by
  rw [Char.ofNat, dif_pos h]
  rfl

end Bytes

inductive Accepts : Bytes → Char → Prop
  | one {a : UInt8} (ha : a.toNat < 0x80) : Accepts [a] (.ofNat a.toNat)
  | two {a b : UInt8} (ha : 0xC2 ≤ a.toNat) (ha' : a.toNat < 0xE0) (hb : isContinuation b) :
    Accepts [a, b] (join2 a b)
  | three {a b c : UInt8} (ha : 0xE0 ≤ a.toNat) (ha' : a.toNat < 0xF0) (hb : isSecondOfThree a b)
    (hc : isContinuation c) : Accepts [a, b, c] (join3 a b c)
  | four {a b c d : UInt8} (ha : 0xF0 ≤ a.toNat) (ha' : a.toNat < 0xF5) (hb : isSecondOfFour a b)
    (hc : isContinuation c) (hd : isContinuation d) : Accepts [a, b, c, d] (join4 a b c d)

section Characters

variable {n : Nat} {bs : Bytes} {c : Char}

theorem Accepts.spells (h : Accepts bs c) : Spells c.toNat bs ∧ Needs c.toNat bs := by
  cases h with
  | @one a ha =>
    rw [toNat_charOfNat (.inl (by omega))]
    have h := Spells.one ha
    rw [UInt8.ofNat_toNat] at h
    exact ⟨h, .inl rfl⟩
  | @two a b ha ha' hb =>
    rw [isContinuation_iff] at hb
    have h := Spells.two (x := a.toNat - 0xC0) (y := b.toNat - 0x80) (by omega) (by omega)
    rw [ofNat_sub_add (by omega), ofNat_sub_add hb.1] at h
    rw [join2, toNat_charOfNat (.inl (by omega))]
    exact ⟨h, .inr (.inl ⟨rfl, by omega⟩)⟩
  | @three a b c ha ha' hb hc =>
    rw [isSecondOfThree_iff] at hb
    rw [isContinuation_iff] at hc
    have h := Spells.three (x := a.toNat - 0xE0) (y := b.toNat - 0x80) (z := c.toNat - 0x80)
      (by omega) (by omega) (by omega)
    rw [ofNat_sub_add ha, ofNat_sub_add hb.1, ofNat_sub_add hc.1] at h
    have hn : (a.toNat - 0xE0) * 4096 + (b.toNat - 0x80) * 64 + (c.toNat - 0x80) =
      ((a.toNat - 0xE0) * 0x40 + (b.toNat - 0x80)) * 0x40 + (c.toNat - 0x80) := by omega
    rw [join3, hn, toNat_charOfNat (by unfold Nat.isValidChar; omega)]
    exact ⟨h, .inr (.inr (.inl ⟨rfl, by omega⟩))⟩
  | @four a b c d ha ha' hb hc hd =>
    rw [isSecondOfFour_iff] at hb
    rw [isContinuation_iff] at hc hd
    have h := Spells.four (x := a.toNat - 0xF0) (y := b.toNat - 0x80) (z := c.toNat - 0x80)
      (u := d.toNat - 0x80) (by omega) (by omega) (by omega) (by omega)
    rw [ofNat_sub_add ha, ofNat_sub_add hb.1, ofNat_sub_add hc.1, ofNat_sub_add hd.1] at h
    have hn : (a.toNat - 0xF0) * 262144 + (b.toNat - 0x80) * 4096 + (c.toNat - 0x80) * 64 +
      (d.toNat - 0x80) = (((a.toNat - 0xF0) * 0x40 + (b.toNat - 0x80)) * 0x40 +
        (c.toNat - 0x80)) * 0x40 + (d.toNat - 0x80) := by omega
    rw [join4, hn, toNat_charOfNat (by unfold Nat.isValidChar; omega)]
    exact ⟨h, .inr (.inr (.inr ⟨rfl, by omega⟩))⟩

theorem Accepts.of_spells (h : Spells n bs) (hn : Needs n bs) (hv : n.isValidChar) :
    Accepts bs (.ofNat n) := by
  unfold Nat.isValidChar at hv
  cases h with
  | one hx =>
    have ha := toNat_ofNat_of_lt (n := n) (by omega)
    have h := Accepts.one (a := .ofNat n) (by omega)
    rwa [ha] at h
  | @two x y hx hy =>
    simp only [Needs, List.length_cons, List.length_nil] at hn
    have ha := toNat_ofNat_of_lt (n := x + 0xC0) (by omega)
    have hb := toNat_ofNat_of_lt (n := y + 0x80) (by omega)
    have h := Accepts.two (a := .ofNat (x + 0xC0)) (b := .ofNat (y + 0x80)) (by omega) (by omega)
      (isContinuation_iff.mpr (by omega))
    rwa [join2, ha, hb, Nat.add_sub_cancel, Nat.add_sub_cancel] at h
  | @three x y z hx hy hz =>
    simp only [Needs, List.length_cons, List.length_nil] at hn
    have ha := toNat_ofNat_of_lt (n := x + 0xE0) (by omega)
    have hb := toNat_ofNat_of_lt (n := y + 0x80) (by omega)
    have hc := toNat_ofNat_of_lt (n := z + 0x80) (by omega)
    have h := Accepts.three (a := .ofNat (x + 0xE0)) (b := .ofNat (y + 0x80))
      (c := .ofNat (z + 0x80)) (by omega) (by omega) (isSecondOfThree_iff.mpr (by omega))
      (isContinuation_iff.mpr (by omega))
    have hsum : x * 4096 + y * 64 + z = (x * 0x40 + y) * 0x40 + z := by omega
    rwa [join3, ha, hb, hc, Nat.add_sub_cancel, Nat.add_sub_cancel, Nat.add_sub_cancel, hsum] at h
  | @four x y z u hx hy hz hu =>
    simp only [Needs, List.length_cons, List.length_nil] at hn
    have ha := toNat_ofNat_of_lt (n := x + 0xF0) (by omega)
    have hb := toNat_ofNat_of_lt (n := y + 0x80) (by omega)
    have hc := toNat_ofNat_of_lt (n := z + 0x80) (by omega)
    have hd := toNat_ofNat_of_lt (n := u + 0x80) (by omega)
    have h := Accepts.four (a := .ofNat (x + 0xF0)) (b := .ofNat (y + 0x80))
      (c := .ofNat (z + 0x80)) (d := .ofNat (u + 0x80)) (by omega) (by omega)
      (isSecondOfFour_iff.mpr (by omega)) (isContinuation_iff.mpr (by omega))
      (isContinuation_iff.mpr (by omega))
    have hsum : x * 262144 + y * 4096 + z * 64 + u =
      ((x * 0x40 + y) * 0x40 + z) * 0x40 + u := by omega
    rwa [join4, ha, hb, hc, hd, Nat.add_sub_cancel, Nat.add_sub_cancel, Nat.add_sub_cancel,
      Nat.add_sub_cancel, hsum] at h

theorem isCharacter_iff : IsCharacter bs ↔ ∃ c, Accepts bs c := by
  constructor
  · rintro ⟨n, h, hs, hmax, hsurrogate⟩
    exact ⟨_, .of_spells h (h.shortest_iff.mp hs) (by unfold Nat.isValidChar; omega)⟩
  · rintro ⟨c, hc⟩
    obtain ⟨h, hn⟩ := hc.spells
    have hv : c.toNat.isValidChar := c.valid
    unfold Nat.isValidChar at hv
    exact ⟨c.toNat, h, h.shortest_iff.mpr hn, by omega, by omega⟩

theorem spells_encode (c : Char) :
    Spells c.toNat (String.utf8EncodeChar c) ∧ Needs c.toNat (String.utf8EncodeChar c) := by
  have hv : c.toNat.isValidChar := c.valid
  unfold Nat.isValidChar at hv
  have hval : c.val.toNat = c.toNat := rfl
  unfold String.utf8EncodeChar Needs
  rw [hval]
  generalize c.toNat = n at hv
  dsimp only
  split_ifs with h₁ h₂ h₃
  · exact ⟨.one (by omega), .inl rfl⟩
  · have h := Spells.two (x := n / 64 % 0x20) (y := n % 0x40) (by omega) (by omega)
    rw [show n / 64 % 0x20 * 0x40 + n % 0x40 = n by omega] at h
    exact ⟨h, .inr (.inl ⟨rfl, by omega⟩)⟩
  · have h := Spells.three (x := n / 4096 % 0x10) (y := n / 64 % 0x40) (z := n % 0x40) (by omega)
      (by omega) (by omega)
    rw [show (n / 4096 % 0x10 * 0x40 + n / 64 % 0x40) * 0x40 + n % 0x40 = n by omega] at h
    exact ⟨h, .inr (.inr (.inl ⟨rfl, by omega⟩))⟩
  · have h := Spells.four (x := n / 262144 % 0x08) (y := n / 4096 % 0x40) (z := n / 64 % 0x40)
      (u := n % 0x40) (by omega) (by omega) (by omega) (by omega)
    rw [show ((n / 262144 % 0x08 * 0x40 + n / 4096 % 0x40) * 0x40 + n / 64 % 0x40) * 0x40 +
      n % 0x40 = n by omega] at h
    exact ⟨h, .inr (.inr (.inr ⟨rfl, by omega⟩))⟩

theorem accepts_iff : Accepts bs c ↔ String.utf8EncodeChar c = bs := by
  obtain ⟨h, hn⟩ := spells_encode c
  constructor
  · intro hc
    obtain ⟨h', hn'⟩ := hc.spells
    refine h.eq_of_length h' ?_
    have hle := h.shortest_iff.mpr hn _ h'
    have hge := h'.shortest_iff.mpr hn' _ h
    omega
  · rintro rfl
    have hc := Accepts.of_spells h hn c.valid
    rwa [Char.ofNat_toNat] at hc

end Characters

section Decoding

variable {i : Nat} {bs rest bytes : Bytes} {c : Char} {cs : List Char}

theorem decodeFrom_append (h : Accepts bs c) :
    decodeFrom i (bs ++ rest) = (c :: ·) <$> decodeFrom (i + bs.length) rest := by
  cases h with
  | one ha =>
    rw [List.singleton_append, decodeFrom.eq_def]
    simp [UInt8.lt_iff_toNat_lt, ha]
  | @two a b ha ha' hb =>
    have h₁ : ¬ a < 0x80 := by simp [UInt8.lt_iff_toNat_lt]; omega
    have h₂ : ¬ a < 0xC2 := by simpa [UInt8.lt_iff_toNat_lt] using ha
    have h₃ : a < 0xE0 := UInt8.lt_iff_toNat_lt.mpr ha'
    rw [List.cons_append, List.singleton_append, decodeFrom.eq_def]
    simp [h₁, h₂, h₃, hb]
  | @three a b c ha ha' hb hc =>
    have h₁ : ¬ a < 0x80 := by simp [UInt8.lt_iff_toNat_lt]; omega
    have h₂ : ¬ a < 0xC2 := by simp [UInt8.lt_iff_toNat_lt]; omega
    have h₃ : ¬ a < 0xE0 := by simpa [UInt8.lt_iff_toNat_lt] using ha
    have h₄ : a < 0xF0 := UInt8.lt_iff_toNat_lt.mpr ha'
    rw [List.cons_append, List.cons_append, List.singleton_append, decodeFrom.eq_def]
    simp [h₁, h₂, h₃, h₄, hb, hc]
  | @four a b c d ha ha' hb hc hd =>
    have h₁ : ¬ a < 0x80 := by simp [UInt8.lt_iff_toNat_lt]; omega
    have h₂ : ¬ a < 0xC2 := by simp [UInt8.lt_iff_toNat_lt]; omega
    have h₃ : ¬ a < 0xE0 := by simp [UInt8.lt_iff_toNat_lt]; omega
    have h₄ : ¬ a < 0xF0 := by simpa [UInt8.lt_iff_toNat_lt] using ha
    have h₅ : a < 0xF5 := UInt8.lt_iff_toNat_lt.mpr ha'
    rw [List.cons_append, List.cons_append, List.cons_append, List.singleton_append,
      decodeFrom.eq_def]
    simp [h₁, h₂, h₃, h₄, h₅, hb, hc, hd]

theorem exists_of_map_eq_ok {x : Except Failure (List Char)} (h : (c :: ·) <$> x = .ok cs) :
    ∃ later, cs = c :: later ∧ x = .ok later := by
  cases x with
  | error e => cases h
  | ok later => exact ⟨later, (Except.ok.inj h).symm, rfl⟩

theorem decodeFrom_eq_ok (h : decodeFrom i bytes = .ok cs) : bytes = [] ∧ cs = [] ∨
    ∃ bs c rest later, Accepts bs c ∧ bytes = bs ++ rest ∧ cs = c :: later ∧
      decodeFrom (i + bs.length) rest = .ok later := by
  revert h
  fun_cases decodeFrom i bytes with
  | case1 => exact fun h => .inl ⟨rfl, (Except.ok.inj h).symm⟩
  | case2 a rest ha =>
    intro h
    obtain ⟨later, hcs, hrest⟩ := exists_of_map_eq_ok h
    exact .inr ⟨[a], _, rest, later, .one (UInt8.lt_iff_toNat_lt.mp ha), rfl, hcs, hrest⟩
  | case6 a h₁ h₂ h₃ b rest hb =>
    intro h
    obtain ⟨later, hcs, hrest⟩ := exists_of_map_eq_ok h
    have ha : 0xC2 ≤ a.toNat := by simpa [UInt8.lt_iff_toNat_lt] using h₂
    exact .inr ⟨[a, b], _, rest, later, .two ha (UInt8.lt_iff_toNat_lt.mp h₃) (by simpa using hb),
      rfl, hcs, hrest⟩
  | case11 a h₁ h₂ h₃ h₄ b hb c rest hc =>
    intro h
    obtain ⟨later, hcs, hrest⟩ := exists_of_map_eq_ok h
    have ha : 0xE0 ≤ a.toNat := by simpa [UInt8.lt_iff_toNat_lt] using h₃
    exact .inr ⟨[a, b, c], _, rest, later, .three ha (UInt8.lt_iff_toNat_lt.mp h₄)
      (by simpa using hb) (by simpa using hc), rfl, hcs, hrest⟩
  | case18 a h₁ h₂ h₃ h₄ h₅ b hb c hc d rest hd =>
    intro h
    obtain ⟨later, hcs, hrest⟩ := exists_of_map_eq_ok h
    have ha : 0xF0 ≤ a.toNat := by simpa [UInt8.lt_iff_toNat_lt] using h₄
    exact .inr ⟨[a, b, c, d], _, rest, later, .four ha (UInt8.lt_iff_toNat_lt.mp h₅)
      (by simpa using hb) (by simpa using hc) (by simpa using hd), rfl, hcs, hrest⟩
  | _ => exact nofun

end Decoding

section Texts

variable {i : Nat} {bytes : Bytes} {cs : List Char} {s : String}

theorem decodeFrom_flatMap (i : Nat) (cs : List Char) :
    decodeFrom i (cs.flatMap String.utf8EncodeChar) = .ok cs := by
  induction cs generalizing i with
  | nil => rfl
  | cons c cs ih =>
    rw [List.flatMap_cons, decodeFrom_append (accepts_iff.mpr rfl), ih]
    rfl

theorem flatMap_of_decodeFrom (h : decodeFrom i bytes = .ok cs) :
    cs.flatMap String.utf8EncodeChar = bytes := by
  induction cs generalizing i bytes with
  | nil =>
    rcases decodeFrom_eq_ok h with ⟨rfl, -⟩ | ⟨_, _, _, _, -, -, hcs, -⟩
    · rfl
    · cases hcs
  | cons c cs ih =>
    rcases decodeFrom_eq_ok h with ⟨-, hcs⟩ | ⟨bs, c', rest, later, hc, rfl, hcs, hrest⟩
    · cases hcs
    · obtain ⟨rfl, rfl⟩ := List.cons.inj hcs
      rw [List.flatMap_cons, ih hrest, accepts_iff.mp hc]

/-- Decoding and encoding undo each other. -/
theorem decode_eq_ok_iff : decode bytes = .ok s ↔ encode s = bytes := by
  unfold decode encode
  constructor
  · intro h
    cases hd : decodeFrom 0 bytes with
    | error e => rw [hd] at h; cases h
    | ok cs =>
      rw [hd] at h
      obtain rfl := Except.ok.inj h
      rw [String.toList_ofList]
      exact flatMap_of_decodeFrom hd
  · rintro rfl
    rw [decodeFrom_flatMap]
    exact congrArg Except.ok String.ofList_toList

theorem wellFormed_iff : WellFormed bytes ↔ ∃ s, encode s = bytes := by
  constructor
  · intro h
    induction h with
    | nil => exact ⟨"", rfl⟩
    | cons hc _ ih =>
      obtain ⟨c, hc⟩ := isCharacter_iff.mp hc
      obtain ⟨s, rfl⟩ := ih
      refine ⟨.ofList (c :: s.toList), ?_⟩
      rw [encode, String.toList_ofList, List.flatMap_cons, accepts_iff.mp hc, encode]
  · rintro ⟨s, rfl⟩
    unfold encode
    induction s.toList with
    | nil => exact .nil
    | cons c cs ih => exact .cons (isCharacter_iff.mpr ⟨c, accepts_iff.mpr rfl⟩) ih

/-- Exactly the well-formed sequences can be decoded. -/
theorem exists_decode_iff : (∃ s, decode bytes = .ok s) ↔ WellFormed bytes := by
  rw [wellFormed_iff]
  exact exists_congr fun s => decode_eq_ok_iff

-- An overlong form, a surrogate, a number above the last character, a sequence cut short.
example : ∀ bytes ∈ [[0xC0, 0x80], [0xED, 0xA0, 0x80], [0xF4, 0x90, 0x80, 0x80], [0xE2, 0x82]],
    (decode bytes).toOption = none := by decide

theorem toUTF8_eq_encode (s : String) : s.toUTF8 = (encode s).toByteArray := by
  have h : (String.ofList s.toList).toByteArray = s.toList.utf8Encode := String.toByteArray_ofList
  rwa [String.ofList_toList] at h

end Texts

end Utf8

end PubSub

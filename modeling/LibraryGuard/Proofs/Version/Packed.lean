import LibraryGuard.Proofs.Version.Order
import LibraryGuard.Proofs.Version.Text

/-!
# The order of packed versions

A packed version holds its three numbers, each cut off at 255, in the three lower bytes of a word (`toNat_packed`). These bytes
are the digits of one number, of which the first counts most, so packed versions stand in the order of the versions that are cut
off (`packed_lt_iff`). Their hexadecimal texts all have eight digits, and digits of one length stand in the order of their
numbers (`hexadecimal_lt_iff`), so the texts are in the same order (`packed_compare_clamped`).
-/

namespace LibraryGuard.Version

/-- The version with each of its numbers cut off at 255. -/
def clamped (v : Version) : Version := ⟨min v.major 0xFF, min v.minor 0xFF, min v.patch 0xFF⟩

/-- Each number of the version fits into a byte. -/
def FitsBytes (v : Version) : Prop := ∀ n ∈ v.numbers, n ≤ 255

/-- The three lower bytes of a word, from the most significant one on. -/
def lowerBytes (w : UInt32) : List Nat := [w.toNat / 2 ^ 16 % 2 ^ 8, w.toNat / 2 ^ 8 % 2 ^ 8, w.toNat % 2 ^ 8]

variable {a b v : Version}

/-! ## Versions that are cut off -/

/-- Cutting off replaces each number that is larger than 255. -/
theorem numbers_clamped (v : Version) : v.clamped.numbers = v.numbers.map (min · 255) := by
  simp only [numbers, clamped, UInt32.toNat_min, List.map_cons, List.map_nil]
  rfl

/-- What is cut off fits into bytes. -/
theorem fitsBytes_clamped (v : Version) : v.clamped.FitsBytes := by
  intro n hn
  rw [numbers_clamped] at hn
  obtain ⟨m, -, rfl⟩ := List.mem_map.1 hn
  exact Nat.min_le_right m 255

theorem fitsBytes_iff : v.FitsBytes ↔ v.major.toNat ≤ 255 ∧ v.minor.toNat ≤ 255 ∧ v.patch.toNat ≤ 255 := by
  simp [FitsBytes, numbers]

/-- Nothing is cut off from a version that fits into bytes. -/
theorem FitsBytes.clamped_eq (h : v.FitsBytes) : v.clamped = v := by
  have hsame : ∀ n ∈ v.numbers, min n 255 = n := fun n hn => Nat.min_eq_left (h n hn)
  refine numbers_injective ?_
  rw [numbers_clamped, List.map_congr_left hsame, List.map_id']

/-! ## Packed versions -/

/-- A packed version is the number of which the numbers, each cut off, are the bytes. -/
theorem toNat_packed (v : Version) :
    v.packed.toNat = 2 ^ 16 * v.clamped.major.toNat + (2 ^ 8 * v.clamped.minor.toNat + v.clamped.patch.toNat) := by
  obtain ⟨hmajor, hminor, hpatch⟩ := fitsBytes_iff.1 (fitsBytes_clamped v)
  have hupper : (v.clamped.major <<< 16).toNat = 2 ^ 16 * v.clamped.major.toNat := by
    rw [UInt32.toNat_shiftLeft, Nat.shiftLeft_eq, Nat.mul_comm]
    exact Nat.mod_eq_of_lt (show 2 ^ 16 * v.clamped.major.toNat < 2 ^ 32 by omega)
  have hmiddle : (v.clamped.minor <<< 8).toNat = 2 ^ 8 * v.clamped.minor.toNat := by
    rw [UInt32.toNat_shiftLeft, Nat.shiftLeft_eq, Nat.mul_comm]
    exact Nat.mod_eq_of_lt (show 2 ^ 8 * v.clamped.minor.toNat < 2 ^ 32 by omega)
  -- Each number ends below the next one's place, so joining their bits adds them up.
  have hlower : 2 ^ 8 * v.clamped.minor.toNat + v.clamped.patch.toNat < 2 ^ 16 := by omega
  calc v.packed.toNat
      = (v.clamped.major <<< 16 ||| v.clamped.minor <<< 8 ||| v.clamped.patch).toNat := rfl
    _ = 2 ^ 16 * v.clamped.major.toNat ||| (2 ^ 8 * v.clamped.minor.toNat ||| v.clamped.patch.toNat) := by
        rw [UInt32.toNat_or, UInt32.toNat_or, hupper, hmiddle, Nat.or_assoc]
    _ = 2 ^ 16 * v.clamped.major.toNat + (2 ^ 8 * v.clamped.minor.toNat + v.clamped.patch.toNat) := by
        rw [← Nat.two_pow_add_eq_or_of_lt (i := 8) (by omega), ← Nat.two_pow_add_eq_or_of_lt hlower]

/-- The lower bytes of a packed version are its numbers, each cut off, and nothing is above them. -/
theorem lowerBytes_packed (v : Version) : v.packed.toNat < 2 ^ 24 ∧ lowerBytes v.packed = v.clamped.numbers := by
  obtain ⟨hmajor, hminor, hpatch⟩ := fitsBytes_iff.1 (fitsBytes_clamped v)
  rw [lowerBytes, numbers, toNat_packed]
  refine ⟨by omega, ?_⟩
  simp only [List.cons.injEq, and_true]
  omega

/-- Packed versions stand in the order of the versions that are cut off. -/
theorem packed_lt_iff (a b : Version) : a.packed < b.packed ↔ a.clamped < b.clamped := by
  obtain ⟨-, hminor, hpatch⟩ := fitsBytes_iff.1 (fitsBytes_clamped a)
  obtain ⟨-, hminor', hpatch'⟩ := fitsBytes_iff.1 (fitsBytes_clamped b)
  rw [UInt32.lt_iff_toNat_lt, toNat_packed, toNat_packed, lt_iff_triple_lt]
  simp only [triple, Prod.Lex.toLex_lt_toLex]
  omega

/-- Two versions are packed into the same word exactly if nothing tells them apart when they are cut off. -/
theorem packed_eq_iff (a b : Version) : a.packed = b.packed ↔ a.clamped = b.clamped := by
  constructor
  · intro h
    refine eq_of_not_lt ?_ ?_
    all_goals
      rw [← packed_lt_iff, h]
      exact UInt32.lt_irrefl _
  · intro h
    rw [← UInt32.toNat_inj, toNat_packed, toNat_packed, h]

/-! ## Hexadecimal texts -/

/-- Of hexadecimal digits the last one counts least. -/
theorem hexadecimal_eq_ofDigits (digits : List Char) :
    hexadecimal digits = Nat.ofDigits 16 (digits.reverse.map hexDigits.idxOf) := by
  rw [hexadecimal, Nat.ofDigits_eq_foldr, List.foldr_map, List.foldr_reverse]
  congr 1
  funext n c
  exact Nat.add_comm _ _

/-- A digit in front counts more than all the others. -/
theorem hexadecimal_cons (c : Char) (digits : List Char) :
    hexadecimal (c :: digits) = hexDigits.idxOf c * 16 ^ digits.length + hexadecimal digits := by
  rw [hexadecimal_eq_ofDigits, hexadecimal_eq_ofDigits, List.reverse_cons, List.map_append, Nat.ofDigits_append,
    List.length_map, List.length_reverse, List.map_singleton, Nat.ofDigits_singleton, Nat.mul_comm, Nat.add_comm]

/-- Hexadecimal digits stand for a number that needs no more of them. -/
theorem hexadecimal_lt {digits : List Char} (h : ∀ c ∈ digits, c ∈ hexDigits) : hexadecimal digits < 16 ^ digits.length := by
  have hvalues : ∀ n ∈ digits.reverse.map hexDigits.idxOf, n < 16 := by
    intro n hn
    obtain ⟨c, hc, rfl⟩ := List.mem_map.1 hn
    exact List.idxOf_lt_length_of_mem (h c (List.mem_reverse.1 hc))
  simpa [hexadecimal_eq_ofDigits] using Nat.ofDigits_lt_base_pow_length (by decide) hvalues

/-- Of two numbers with a leading digit each, the one with the smaller leading digit is smaller, whatever is behind that. -/
theorem leading_lt_iff {i j m n base : Nat} (hm : m < base) (hn : n < base) :
    i * base + m < j * base + n ↔ i < j ∨ i = j ∧ m < n := by
  rcases Nat.lt_trichotomy i j with hlt | rfl | hgt
  · have hle : (i + 1) * base ≤ j * base := Nat.mul_le_mul_right base hlt
    rw [Nat.add_one_mul] at hle
    exact iff_of_true (by omega) (Or.inl hlt)
  · omega
  · have hle : (j + 1) * base ≤ i * base := Nat.mul_le_mul_right base hgt
    rw [Nat.add_one_mul] at hle
    exact iff_of_false (by omega) (by omega)

/-- Hexadecimal digits are in the order of their values. -/
theorem hexDigits_lt_iff {c d : Char} (hc : c ∈ hexDigits) (hd : d ∈ hexDigits) :
    c < d ↔ hexDigits.idxOf c < hexDigits.idxOf d := by
  -- `all` runs through the sixteen digits, where a quantifier would be decided by running through all characters
  have hall : (hexDigits.all fun c => hexDigits.all fun d => c < d ↔ hexDigits.idxOf c < hexDigits.idxOf d) = true := by decide
  simp only [List.all_eq_true, decide_eq_true_iff] at hall
  exact hall c hc d hd

/-- Hexadecimal digits of one length are in the order of their numbers. -/
theorem hexadecimal_lt_iff {s t : List Char} (hlength : s.length = t.length) (hs : ∀ c ∈ s, c ∈ hexDigits)
    (ht : ∀ c ∈ t, c ∈ hexDigits) : s < t ↔ hexadecimal s < hexadecimal t := by
  induction s generalizing t with
  | nil =>
    obtain rfl := List.length_eq_zero_iff.1 hlength.symm
    simp
  | cons c s ih =>
    cases t with
    | nil => cases hlength
    | cons d t =>
      obtain ⟨hc, hs⟩ := List.forall_mem_cons.1 hs
      obtain ⟨hd, ht⟩ := List.forall_mem_cons.1 ht
      have hlength : s.length = t.length := Nat.succ.inj hlength
      have hsmall : hexadecimal t < 16 ^ s.length := hlength ▸ hexadecimal_lt ht
      rw [List.cons_lt_cons_iff, ih hlength hs ht, hexDigits_lt_iff hc hd, ← List.idxOf_inj hc, hexadecimal_cons,
        hexadecimal_cons, ← hlength, leading_lt_iff (hexadecimal_lt hs) hsmall]

/-- The texts of packed versions stand in the order of these. -/
theorem packedHex_lt_iff (a b : Version) : a.packedHex < b.packedHex ↔ a.packed < b.packed := by
  obtain ⟨s, hs, hlength, hdigits, hvalue⟩ := packedHex_eq_digits a
  obtain ⟨t, ht, hlength', hdigits', hvalue'⟩ := packedHex_eq_digits b
  rw [hs, ht, String.lt_iff, String.toList_ofList, String.toList_ofList,
    hexadecimal_lt_iff (hlength.trans hlength'.symm) hdigits hdigits', hvalue, hvalue', UInt32.lt_iff_toNat_lt]

/-- Packed versions have the same text only if they are the same. -/
theorem packedHex_eq_iff (a b : Version) : a.packedHex = b.packedHex ↔ a.packed = b.packed := by
  constructor
  · intro h
    obtain ⟨s, hs, -, -, hvalue⟩ := packedHex_eq_digits a
    obtain ⟨t, ht, -, -, hvalue'⟩ := packedHex_eq_digits b
    obtain rfl : s = t := String.ofList_injective (hs.symm.trans (h.trans ht))
    exact UInt32.toNat_inj.1 (hvalue.symm.trans hvalue')
  · intro h
    rw [packedHex, packedHex, h]

/-! ## Comparing -/

/-- Two pairs compare alike if both are in order at once, and both are equal at once. -/
theorem compareOfLessAndEq_congr {α β : Type} [LT α] [DecidableLT α] [DecidableEq α] [LT β] [DecidableLT β] [DecidableEq β]
    {x y : α} {z w : β} (hlt : x < y ↔ z < w) (heq : x = y ↔ z = w) : compareOfLessAndEq x y = compareOfLessAndEq z w := by
  simp only [compareOfLessAndEq, hlt, heq]

-- With the texts as variables, so that no text is worked out when the two comparisons are unfolded.
theorem compare_text_eq {s t : String} {m n : UInt32} (hlt : s < t ↔ m < n) (heq : s = t ↔ m = n) :
    compare s t = compare m n :=
  compareOfLessAndEq_congr hlt heq

/-- Packing a version puts its numbers, each cut off at 255, into the lower three bytes of a word, and nothing above them. Two
packed versions compare as the versions do that are cut off, number by number from the left, so on versions whose numbers all fit
into bytes packing is injective and keeps the order in both directions. The text of a packed version is the eight hexadecimal
digits of the word, and texts compare as the words do. -/
theorem packed_compare_clamped :
    (∀ v : Version, v.packed.toNat < 2 ^ 24 ∧ lowerBytes v.packed = v.clamped.numbers ∧
      v.clamped.numbers = v.numbers.map (min · 255)) ∧
    (∀ a b : Version, compare a.packed b.packed = compare a.clamped b.clamped ∧
      compare a.clamped b.clamped = compare a.clamped.triple b.clamped.triple) ∧
    (∀ a b : Version, a.FitsBytes → b.FitsBytes → (a.packed = b.packed ↔ a = b) ∧ (a.packed < b.packed ↔ a < b)) ∧
    (∀ v : Version, ∃ digits, v.packedHex = String.ofList digits ∧ digits.length = 8 ∧ (∀ c ∈ digits, c ∈ hexDigits) ∧
      hexadecimal digits = v.packed.toNat) ∧
    ∀ a b : Version, compare a.packedHex b.packedHex = compare a.packed b.packed := by
  refine ⟨fun v => ?_, fun a b => ?_, fun a b ha hb => ⟨?_, ?_⟩, packedHex_eq_digits, fun a b => ?_⟩
  · exact ⟨(lowerBytes_packed v).1, (lowerBytes_packed v).2, numbers_clamped v⟩
  · rw [LinearOrder.compare_eq_compareOfLessAndEq a.clamped b.clamped,
      LinearOrder.compare_eq_compareOfLessAndEq a.clamped.triple b.clamped.triple]
    exact ⟨compareOfLessAndEq_congr (packed_lt_iff a b) (packed_eq_iff a b),
      compareOfLessAndEq_congr (lt_iff_triple_lt _ _) triple_injective.eq_iff.symm⟩
  · rw [packed_eq_iff, ha.clamped_eq, hb.clamped_eq]
  · rw [packed_lt_iff, ha.clamped_eq, hb.clamped_eq]
  · exact compare_text_eq (packedHex_lt_iff a b) (packedHex_eq_iff a b)

/-- The step from the largest version below `4.0.0` that fits into bytes. -/
theorem packed_compare_lastMinor :
    let a : Version := ⟨3, 255, 255⟩
    let b : Version := ⟨4, 0, 0⟩
    a.FitsBytes ∧ b.FitsBytes ∧ a < b ∧ a.packed < b.packed ∧ a.packed ≠ b.packed := by
  intro a b
  have ha : a.FitsBytes := fitsBytes_iff.2 (by decide)
  have hb : b.FitsBytes := fitsBytes_iff.2 (by decide)
  have hlt : a < b := by decide
  obtain ⟨hsame, hless⟩ := packed_compare_clamped.2.2.1 a b ha hb
  exact ⟨ha, hb, hlt, hless.2 hlt, mt hsame.1 hlt.ne⟩

end LibraryGuard.Version

import LibraryGuard.Proofs.Version.Grammar

/-!
# The texts of a version

The text of a version is written with the digits of its three numbers (`isWritten_text`), so it is read as that version again
(`parse_text`). A text that is read as a version is the version's own text exactly if it has three numbers without superfluous
zeros (`text_parse_inverse`). The packed triple is written in eight hexadecimal digits, which stand for it
(`packedHex_eq_digits`).
-/

namespace LibraryGuard.Version

/-! ## Decimal -/

/-- There is no superfluous zero in front of a component: it begins with a zero only if there is nothing else. -/
def IsCanonical (c : List Char) : Prop := c.head? = some '0' → c = ['0']

/-- A digit is the one with which its value is written. -/
theorem toDigits_digit {d : Char} (h : d.isDigit = true) : Nat.toDigits 10 (d.toNat - '0'.toNat) = [d] := by
  have hrange : 48 ≤ d.toNat ∧ d.toNat ≤ 57 := by simpa [Char.isDigit, UInt32.le_iff_toNat_le] using h
  have hvalue : d.toNat - '0'.toNat < 10 := by
    show d.toNat - 48 < 10
    omega
  rw [Nat.toDigits_of_lt_base hvalue, List.cons.injEq]
  refine ⟨Char.toNat_inj.1 ?_, rfl⟩
  rw [Nat.toNat_digitChar_of_lt_ten hvalue]
  show 48 + (d.toNat - 48) = d.toNat
  omega

/-- Digits behind a number that is not zero are written behind it. -/
theorem toDigits_ofDigitChars {ds : List Char} (h : ∀ d ∈ ds, d.isDigit = true) {n : Nat} (hn : 0 < n) :
    Nat.toDigits 10 (Nat.ofDigitChars 10 ds n) = Nat.toDigits 10 n ++ ds := by
  induction ds generalizing n with
  | nil => simp [Nat.ofDigitChars]
  | cons d ds ih =>
    obtain ⟨hd, hds⟩ := List.forall_mem_cons.1 h
    have hvalue : d.toNat - '0'.toNat < 10 := by
      have hdigits : (Nat.toDigits 10 (d.toNat - '0'.toNat)).length ≤ 1 := by rw [toDigits_digit hd, List.length_singleton]
      simpa using (Nat.length_toDigits_le_iff (by decide) (by decide)).1 hdigits
    calc Nat.toDigits 10 (Nat.ofDigitChars 10 (d :: ds) n)
        = Nat.toDigits 10 (10 * n + (d.toNat - '0'.toNat)) ++ ds := by rw [Nat.ofDigitChars_cons, ih hds (by omega)]
      _ = Nat.toDigits 10 n ++ Nat.toDigits 10 (d.toNat - '0'.toNat) ++ ds := by
          rw [Nat.toDigits_append_toDigits (by decide) hn hvalue]
      _ = Nat.toDigits 10 n ++ d :: ds := by rw [toDigits_digit hd, List.append_assoc, List.singleton_append]

/-- The digits of a number stand for it. -/
theorem value_toDigits (n : Nat) : value (Nat.toDigits 10 n) = n :=
  calc value (Nat.toDigits 10 n)
      = Nat.ofDigitChars 10 (Nat.toDigits 10 n) 0 := by rw [← decimal_eq_value, decimal, Nat.ofDigitChars_eq_foldl]
    _ = n := Nat.ofDigitChars_ten_toDigits

/-- A number is written with digits. -/
theorem isDecimal_toDigits (n : Nat) : IsDecimal (Nat.toDigits 10 n) :=
  ⟨Nat.toDigits_ne_nil, fun _ hd => Nat.isDigit_of_mem_toDigits (by decide) (by decide) hd⟩

/-- The first digit of a number that is not zero is not zero. -/
theorem head?_toDigits_ne_zero {n : Nat} (h : 0 < n) : (Nat.toDigits 10 n).head? ≠ some '0' := by
  induction n using Nat.strongRecOn with
  | ind n ih =>
    rw [Nat.toDigits_eq_if (by decide)]
    split
    next hlt =>
      have hall : ∀ d : Fin 10, 0 < d.val → [d.val.digitChar].head? ≠ some '0' := by decide
      exact hall ⟨n, hlt⟩ h
    next hge =>
      rw [List.head?_append_of_ne_nil _ Nat.toDigits_ne_nil]
      exact ih (n / 10) (by omega) (by omega)

/-- A number is written without a superfluous zero. -/
theorem isCanonical_toDigits (n : Nat) : IsCanonical (Nat.toDigits 10 n) := by
  intro hzero
  cases n with
  | zero => rfl
  | succ n => exact absurd hzero (head?_toDigits_ne_zero n.succ_pos)

/-- Digits without a superfluous zero are those with which their number is written. -/
theorem toDigits_value {c : List Char} (hdecimal : IsDecimal c) (hcanonical : IsCanonical c) : Nat.toDigits 10 (value c) = c := by
  obtain ⟨hne, hdigits⟩ := hdecimal
  cases c with
  | nil => exact absurd rfl hne
  | cons d ds =>
    obtain ⟨hd, hds⟩ := List.forall_mem_cons.1 hdigits
    by_cases hzero : d = '0'
    · subst hzero
      rw [hcanonical rfl]
      rfl
    · have hpos : 0 < d.toNat - '0'.toNat := by
        rw [Nat.pos_iff_ne_zero]
        intro h
        have hdigit := toDigits_digit hd
        rw [h] at hdigit
        exact hzero (List.cons.inj hdigit).1.symm
      rw [← decimal_eq_value, decimal, ← Nat.ofDigitChars_eq_foldl, Nat.ofDigitChars_cons, Nat.mul_zero, Nat.zero_add,
        toDigits_ofDigitChars hds hpos, toDigits_digit hd, List.singleton_append]

/-- The text of a version is written with the digits of its three numbers. -/
theorem isWritten_text (v : Version) : IsWritten v.text (v.numbers.map (Nat.toDigits 10)) where
  joined := by simp [text, numbers, List.intercalate]
  not_nil := List.cons_ne_nil _ _
  at_most_three := Nat.le_refl 3
  areNumbers := by
    intro c hc
    obtain ⟨n, hn, rfl⟩ := List.mem_map.1 hc
    refine ⟨isDecimal_toDigits n, ?_⟩
    rw [value_toDigits]
    rcases List.mem_cons.1 hn with rfl | hn
    · exact v.major.toNat_lt
    · rcases List.mem_cons.1 hn with rfl | hn
      · exact v.minor.toNat_lt
      · rw [List.mem_singleton.1 hn]
        exact v.patch.toNat_lt

/-- The text of a version is read as it. -/
theorem parse_text (v : Version) : parse v.text = .ok v := by
  refine parse_eq_ok_iff.2 ⟨_, isWritten_text v, ?_⟩
  have hvalues : (v.numbers.map (Nat.toDigits 10)).map value = v.numbers := by
    rw [List.map_map]
    exact List.map_id'' (fun n => value_toDigits n) _
  rw [hvalues]
  exact (List.append_nil _).symm

/-- A text tells a version in full: it is written with the version's three numbers, and none of them has a superfluous zero in
front. -/
def TellsInFull (s : String) (v : Version) : Prop :=
  ∃ cs, IsWritten s cs ∧ cs.map value = v.numbers ∧ ∀ c ∈ cs, IsCanonical c

/-- The one text that tells a version in full is the version's own. -/
theorem tellsInFull_iff {s : String} {v : Version} : TellsInFull s v ↔ v.text = s := by
  constructor
  · rintro ⟨cs, hwritten, hnumbers, hcanonical⟩
    have hdigits : v.numbers.map (Nat.toDigits 10) = cs := by
      rw [← hnumbers, List.map_map]
      exact (List.map_congr_left fun c hc => toDigits_value (hwritten.areNumbers c hc).isDecimal (hcanonical c hc)).trans
        (List.map_id' cs)
    rw [← String.toList_inj, (isWritten_text v).joined, hdigits, hwritten.joined]
  · rintro rfl
    refine ⟨_, isWritten_text v, ?_, fun c hc => ?_⟩
    · rw [List.map_map]
      exact List.map_id'' (fun n => value_toDigits n) _
    · obtain ⟨n, -, rfl⟩ := List.mem_map.1 hc
      exact isCanonical_toDigits n

/-- Text and reading are inverse on the texts that are written in full. The text of a version is read as it, so no two versions
have the same text. A text that is read as a version is the text of this version exactly if it is written with three numbers
none of which has a superfluous zero in front, and in any case the text of the version is read as the same version. -/
theorem text_parse_inverse :
    (∀ v, parse v.text = .ok v) ∧ Function.Injective text ∧
      ∀ s v, parse s = .ok v →
        (v.text = s ↔ ∃ cs, IsWritten s cs ∧ cs.length = 3 ∧ ∀ c ∈ cs, IsCanonical c) ∧ parse v.text = parse s := by
  refine ⟨parse_text, fun a b h => ?_, fun s v hread => ⟨?_, (parse_text v).trans hread.symm⟩⟩
  · exact Except.ok.inj ((parse_text a).symm.trans ((congrArg parse h).trans (parse_text b)))
  · rw [← tellsInFull_iff]
    obtain ⟨cs, hwritten, hnumbers⟩ := parse_eq_ok_iff.1 hread
    refine exists_congr fun cs' => and_congr_right fun hwritten' => and_congr_left fun _ => ?_
    obtain rfl : cs = cs' := (isWritten_iff.1 hwritten).1.trans (isWritten_iff.1 hwritten').1.symm
    constructor
    · intro h
      rw [← List.length_map (f := value), h]
      rfl
    · intro hthree
      rw [hnumbers, hthree, Nat.sub_self, List.replicate_zero, List.append_nil]

/-! ## Hexadecimal -/

/-- The hexadecimal digits, each at its value. -/
def hexDigits : List Char := "0123456789abcdef".toList

/-- The number that hexadecimal digits stand for. -/
def hexadecimal (digits : List Char) : Nat := digits.foldl (fun n c => 16 * n + hexDigits.idxOf c) 0

/-- The digit of a value below sixteen stands at this value. -/
theorem digitChar_mem_and_idxOf {d : Nat} (h : d < 16) : d.digitChar ∈ hexDigits ∧ hexDigits.idxOf d.digitChar = d := by
  have hall : ∀ d : Fin 16, d.val.digitChar ∈ hexDigits ∧ hexDigits.idxOf d.val.digitChar = d := by decide
  exact hall ⟨d, h⟩

/-- The hexadecimal digits of a number are such digits, and stand for it. -/
theorem toDigits_mem_and_value (n : Nat) : (∀ c ∈ Nat.toDigits 16 n, c ∈ hexDigits) ∧ hexadecimal (Nat.toDigits 16 n) = n := by
  induction n using Nat.strongRecOn with
  | ind n ih =>
    rw [Nat.toDigits_eq_if (by decide)]
    split
    next hlt =>
      obtain ⟨hmem, hvalue⟩ := digitChar_mem_and_idxOf hlt
      exact ⟨List.forall_mem_singleton.2 hmem, by simpa [hexadecimal] using hvalue⟩
    next hge =>
      obtain ⟨hmem, hvalue⟩ := digitChar_mem_and_idxOf (Nat.mod_lt n (show 0 < 16 by decide))
      obtain ⟨hmems, hvalues⟩ := ih (n / 16) (by omega)
      refine ⟨fun c hc => ?_, ?_⟩
      · rcases List.mem_append.1 hc with hc | hc
        · exact hmems c hc
        · exact List.mem_singleton.1 hc ▸ hmem
      · rw [hexadecimal] at hvalues
        rw [hexadecimal, List.foldl_append, hvalues, List.foldl_cons, List.foldl_nil, hvalue]
        omega

/-- The packed triple is written in eight hexadecimal digits, which stand for it. -/
theorem packedHex_eq_digits (v : Version) :
    ∃ digits, v.packedHex = String.ofList digits ∧ digits.length = 8 ∧ (∀ c ∈ digits, c ∈ hexDigits) ∧
      hexadecimal digits = v.packed.toNat := by
  obtain ⟨hmem, hvalue⟩ := toDigits_mem_and_value v.packed.toNat
  have hlength : (Nat.toDigits 16 v.packed.toNat).length ≤ 8 :=
    (Nat.length_toDigits_le_iff (by decide) (by decide)).2 v.packed.toNat_lt
  refine ⟨_, rfl, ?_, fun c hc => ?_, ?_⟩
  · rw [List.length_append, List.length_replicate]
    omega
  · rcases List.mem_append.1 hc with hc | hc
    · rw [List.eq_of_mem_replicate hc]
      decide
    · exact hmem c hc
  · have hzeros : ∀ count, (List.replicate count '0').foldl (fun n c => 16 * n + hexDigits.idxOf c) 0 = 0 := by
      intro count
      induction count with
      | zero => rfl
      | succ count ih => exact ih
    rw [hexadecimal, List.foldl_append, hzeros]
    exact hvalue

end LibraryGuard.Version

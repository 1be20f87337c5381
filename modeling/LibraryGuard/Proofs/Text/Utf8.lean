import LibraryGuard.Text.Utf8
import Mathlib.Tactic.SplitIfs

/-!
# Encoded text is decoded again

The bytes that encode a character begin with a step that takes just that character (`next_encodeChar`), and a step that takes a
character takes just the bytes that encode it (`encodeChar_of_next`). So the bytes that decode to a text are the bytes of the
text, and no others (`decode_eq_some_iff`). The byte of an ASCII character encodes that character only (`ascii_mem_encode_iff`).
-/

namespace LibraryGuard.Text.Utf8

/-! ## One character -/

/-- A small number is the number of the byte made of it. -/
theorem toNat_byte {n : Nat} (h : n < 256) : (UInt8.ofNat n).toNat = n := by
  rw [UInt8.toNat_ofNat']
  omega

/-- The step at a lead byte depends on the byte's number. -/
theorem next_eq (b : UInt8) (r : List UInt8) :
    next b r =
      if b.toNat < 0x80 then .character (Char.ofNat b.toNat) r
      else if b.toNat < 0xC2 then .broken r
      else if b.toNat < 0xE0 then follow 1 0x80 0xBF (b.toNat - 0xC0) r
      else if b.toNat = 0xE0 then follow 2 0xA0 0xBF 0 r
      else if b.toNat = 0xED then follow 2 0x80 0x9F 0xD r
      else if b.toNat < 0xF0 then follow 2 0x80 0xBF (b.toNat - 0xE0) r
      else if b.toNat = 0xF0 then follow 3 0x90 0xBF 0 r
      else if b.toNat < 0xF4 then follow 3 0x80 0xBF (b.toNat - 0xF0) r
      else if b.toNat = 0xF4 then follow 3 0x80 0x8F 4 r
      else .broken r := by
  simp only [next, UInt8.lt_iff_toNat_lt, ← UInt8.toNat_inj, UInt8.reduceToNat]

/-- A continuation byte in the permitted range adds its six bits to the number read so far. -/
theorem follow_continuation {n v acc : Nat} {lo hi : UInt8} (r : List UInt8) (hv : v < 64) (hlo : lo.toNat ≤ v + 128)
    (hhi : v + 128 ≤ hi.toNat) :
    follow (n + 1) lo hi acc (UInt8.ofNat (v + 128) :: r) = follow n 0x80 0xBF (acc * 64 + v) r := by
  have hb : (UInt8.ofNat (v + 128)).toNat = v + 128 := toNat_byte (by omega)
  have hrange : lo ≤ UInt8.ofNat (v + 128) ∧ UInt8.ofNat (v + 128) ≤ hi := by
    rw [UInt8.le_iff_toNat_le, UInt8.le_iff_toNat_le, hb]
    exact ⟨hlo, hhi⟩
  rw [follow, if_pos hrange, hb, Nat.add_sub_cancel]

/-- The least and the greatest continuation byte, as numbers. -/
theorem follow_any {n v acc : Nat} (r : List UInt8) (hv : v < 64) :
    follow (n + 1) 0x80 0xBF acc (UInt8.ofNat (v + 128) :: r) = follow n 0x80 0xBF (acc * 64 + v) r :=
  follow_continuation r hv (Nat.le_add_left 128 v) (by show v + 128 ≤ 191; omega)

/-- The step at the bytes of a character takes the character. The lead byte tells how many bytes there are, and it narrows the
range of the second one where a shorter form, a surrogate or a number past the last character would begin. -/
theorem next_encodeChar (c : Char) (rest : List UInt8) :
    ∃ b r, String.utf8EncodeChar c = b :: r ∧ next b (r ++ rest) = .character c rest := by
  have hvalid : c.toNat < 0xD800 ∨ 0xDFFF < c.toNat ∧ c.toNat < 0x110000 := c.valid
  have hval : c.val.toNat = c.toNat := rfl
  have hc : ∀ n, n = c.toNat → follow 0 0x80 0xBF n rest = .character c rest := by
    rintro n rfl
    rw [follow, Char.ofNat_toNat]
  simp only [String.utf8EncodeChar, hval]
  generalize c.toNat = v at hvalid hc
  split
  · refine ⟨_, _, rfl, ?_⟩
    rw [next_eq, toNat_byte (by omega), if_pos (by omega)]
    exact hc v rfl
  split
  · refine ⟨_, _, rfl, ?_⟩
    rw [next_eq, toNat_byte (by omega), if_neg (by omega), if_neg (by omega), if_pos (by omega), List.singleton_append,
      follow_any _ (by omega)]
    exact hc _ (by omega)
  split
  · refine ⟨_, _, rfl, ?_⟩
    rw [next_eq, toNat_byte (by omega), if_neg (by omega), if_neg (by omega), if_neg (by omega), List.cons_append,
      List.singleton_append]
    by_cases h0 : v < 0x1000
    · rw [if_pos (by omega), follow_continuation _ (by omega) (by show 160 ≤ _; omega) (by show _ ≤ 191; omega),
        follow_any _ (by omega)]
      exact hc _ (by omega)
    · rw [if_neg (by omega)]
      by_cases hD : v / 0x1000 = 0xD
      · rw [if_pos (by omega), follow_continuation _ (by omega) (by show 128 ≤ _; omega) (by show _ ≤ 159; omega),
          follow_any _ (by omega)]
        exact hc _ (by omega)
      · rw [if_neg (by omega), if_pos (by omega), follow_any _ (by omega), follow_any _ (by omega)]
        exact hc _ (by omega)
  · refine ⟨_, _, rfl, ?_⟩
    rw [next_eq, toNat_byte (by omega), if_neg (by omega), if_neg (by omega), if_neg (by omega), if_neg (by omega),
      if_neg (by omega), if_neg (by omega), List.cons_append, List.cons_append, List.singleton_append]
    by_cases h0 : v < 0x40000
    · rw [if_pos (by omega), follow_continuation _ (by omega) (by show 144 ≤ _; omega) (by show _ ≤ 191; omega),
        follow_any _ (by omega), follow_any _ (by omega)]
      exact hc _ (by omega)
    · rw [if_neg (by omega)]
      by_cases h4 : v < 0x100000
      · rw [if_pos (by omega), follow_any _ (by omega), follow_any _ (by omega), follow_any _ (by omega)]
        exact hc _ (by omega)
      · rw [if_neg (by omega), if_pos (by omega),
          follow_continuation _ (by omega) (by show 128 ≤ _; omega) (by show _ ≤ 143; omega), follow_any _ (by omega),
          follow_any _ (by omega)]
        exact hc _ (by omega)

/-! ## The bytes of one character -/

/-- The number of the character made of a number, where there is one. -/
theorem val_ofNat {n : Nat} (h : n.isValidChar) : (Char.ofNat n).val.toNat = n := by
  rw [Char.ofNat, dif_pos h]
  rfl

/-- A character is complete when nothing is left to follow. -/
theorem follow_zero_eq_character {lo hi : UInt8} {acc : Nat} {r rest : List UInt8} {c : Char}
    (h : follow 0 lo hi acc r = .character c rest) : Char.ofNat acc = c ∧ r = rest := by
  simpa [follow] using h

/-- A character that is not complete goes on with a continuation byte in the permitted range. -/
theorem follow_succ_eq_character {n acc : Nat} {lo hi : UInt8} {r rest : List UInt8} {c : Char} (hlo : 128 ≤ lo.toNat)
    (h : follow (n + 1) lo hi acc r = .character c rest) :
    ∃ v r', lo.toNat ≤ v + 128 ∧ v + 128 ≤ hi.toNat ∧ r = UInt8.ofNat (v + 128) :: r' ∧
      follow n 0x80 0xBF (acc * 64 + v) r' = .character c rest := by
  cases r with
  | nil => simp [follow] at h
  | cons b r =>
    rw [follow] at h
    split at h
    next hrange =>
      rw [UInt8.le_iff_toNat_le, UInt8.le_iff_toNat_le] at hrange
      have hb : b.toNat - 0x80 + 128 = b.toNat := by omega
      exact ⟨b.toNat - 0x80, r, by omega, by omega, by rw [hb, UInt8.ofNat_toNat], h⟩
    next => simp at h

/-- A small number is the byte that its character is encoded as. -/
theorem encodeChar_one {n : Nat} (h : n < 0x80) : String.utf8EncodeChar (Char.ofNat n) = [UInt8.ofNat n] := by
  simp only [String.utf8EncodeChar, val_ofNat (Or.inl (by omega) : n.isValidChar)]
  rw [if_pos (by omega)]

/-- The two bytes of a character carry five and six bits of its number. -/
theorem encodeChar_two {a v : Nat} (ha : 2 ≤ a) (ha' : a < 32) (hv : v < 64) :
    String.utf8EncodeChar (Char.ofNat (a * 64 + v)) = [UInt8.ofNat (a + 0xC0), UInt8.ofNat (v + 0x80)] := by
  simp only [String.utf8EncodeChar, val_ofNat (Or.inl (by omega) : (a * 64 + v).isValidChar)]
  rw [if_neg (by omega), if_pos (by omega)]
  congr <;> omega

/-- The three bytes of a character carry four, six and six bits of its number. -/
theorem encodeChar_three {a v w : Nat} (ha : a < 16) (hv : v < 64) (hw : w < 64) (hlong : a = 0 → 32 ≤ v)
    (hsurrogate : a = 13 → v < 32) :
    String.utf8EncodeChar (Char.ofNat ((a * 64 + v) * 64 + w)) =
      [UInt8.ofNat (a + 0xE0), UInt8.ofNat (v + 0x80), UInt8.ofNat (w + 0x80)] := by
  have hvalid : ((a * 64 + v) * 64 + w).isValidChar := by
    rw [Nat.isValidChar]
    omega
  simp only [String.utf8EncodeChar, val_ofNat hvalid]
  rw [if_neg (by omega), if_neg (by omega), if_pos (by omega)]
  congr <;> omega

/-- The four bytes of a character carry three, six, six and six bits of its number. -/
theorem encodeChar_four {a v w x : Nat} (ha : a ≤ 4) (hv : v < 64) (hw : w < 64) (hx : x < 64) (hlong : a = 0 → 16 ≤ v)
    (hlast : a = 4 → v < 16) :
    String.utf8EncodeChar (Char.ofNat (((a * 64 + v) * 64 + w) * 64 + x)) =
      [UInt8.ofNat (a + 0xF0), UInt8.ofNat (v + 0x80), UInt8.ofNat (w + 0x80), UInt8.ofNat (x + 0x80)] := by
  have hvalid : (((a * 64 + v) * 64 + w) * 64 + x).isValidChar := by
    rw [Nat.isValidChar]
    omega
  simp only [String.utf8EncodeChar, val_ofNat hvalid]
  rw [if_neg (by omega), if_neg (by omega), if_neg (by omega)]
  congr <;> omega

/-- A character that is read from a lead byte of two bytes is encoded as they stand. -/
theorem follow_one_eq_character {a : Nat} {lo hi : UInt8} {r rest : List UInt8} {c : Char}
    (h : follow 1 lo hi a r = .character c rest) (ha : 2 ≤ a) (ha' : a < 32) (hlo : 128 ≤ lo.toNat) (hhi : hi.toNat ≤ 191) :
    UInt8.ofNat (a + 0xC0) :: r = String.utf8EncodeChar c ++ rest := by
  obtain ⟨v, r₁, hv, hv', rfl, h₁⟩ := follow_succ_eq_character hlo h
  obtain ⟨rfl, rfl⟩ := follow_zero_eq_character h₁
  rw [encodeChar_two ha ha' (by omega)]
  rfl

/-- A character that is read from a lead byte of three bytes is encoded as they stand. -/
theorem follow_two_eq_character {a : Nat} {lo hi : UInt8} {r rest : List UInt8} {c : Char}
    (h : follow 2 lo hi a r = .character c rest) (ha : a < 16) (hlo : 128 ≤ lo.toNat) (hhi : hi.toNat ≤ 191)
    (hlong : a = 0 → 160 ≤ lo.toNat) (hsurrogate : a = 13 → hi.toNat ≤ 159) :
    UInt8.ofNat (a + 0xE0) :: r = String.utf8EncodeChar c ++ rest := by
  obtain ⟨v, r₁, hv, hv', rfl, h₁⟩ := follow_succ_eq_character hlo h
  obtain ⟨w, r₂, hw, hw', rfl, h₂⟩ := follow_succ_eq_character (by decide) h₁
  obtain ⟨rfl, rfl⟩ := follow_zero_eq_character h₂
  simp only [UInt8.reduceToNat] at hw'
  rw [encodeChar_three ha (by omega) (by omega) (by omega) (by omega)]
  rfl

/-- A character that is read from a lead byte of four bytes is encoded as they stand. -/
theorem follow_three_eq_character {a : Nat} {lo hi : UInt8} {r rest : List UInt8} {c : Char}
    (h : follow 3 lo hi a r = .character c rest) (ha : a ≤ 4) (hlo : 128 ≤ lo.toNat) (hhi : hi.toNat ≤ 191)
    (hlong : a = 0 → 144 ≤ lo.toNat) (hlast : a = 4 → hi.toNat ≤ 143) :
    UInt8.ofNat (a + 0xF0) :: r = String.utf8EncodeChar c ++ rest := by
  obtain ⟨v, r₁, hv, hv', rfl, h₁⟩ := follow_succ_eq_character hlo h
  obtain ⟨w, r₂, hw, hw', rfl, h₂⟩ := follow_succ_eq_character (by decide) h₁
  obtain ⟨x, r₃, hx, hx', rfl, h₃⟩ := follow_succ_eq_character (by decide) h₂
  obtain ⟨rfl, rfl⟩ := follow_zero_eq_character h₃
  simp only [UInt8.reduceToNat] at hw' hx'
  rw [encodeChar_four ha (by omega) (by omega) (by omega) (by omega) (by omega)]
  rfl

/-- A step that takes a character takes the bytes that the character is encoded as. -/
theorem encodeChar_of_next {b : UInt8} {r rest : List UInt8} {c : Char} (h : next b r = .character c rest) :
    b :: r = String.utf8EncodeChar c ++ rest := by
  -- Each range of lead bytes bounds the second byte so that no shorter form, surrogate or number past the last one is read.
  have hlead : ∀ a, a = b.toNat → UInt8.ofNat a = b := by
    rintro a rfl
    exact UInt8.ofNat_toNat
  rw [next_eq] at h
  split at h
  next hone =>
    simp only [Step.character.injEq] at h
    obtain ⟨rfl, rfl⟩ := h
    rw [encodeChar_one hone, UInt8.ofNat_toNat]
    rfl
  split at h
  next => simp at h
  split at h
  next =>
    rw [← follow_one_eq_character h (by omega) (by omega) (by decide) (by decide), hlead _ (by omega)]
  split at h
  next =>
    rw [← follow_two_eq_character h (by decide) (by decide) (by decide) (by decide) (by decide), hlead _ (by omega)]
  split at h
  next =>
    rw [← follow_two_eq_character h (by decide) (by decide) (by decide) (by decide) (by decide), hlead _ (by omega)]
  split at h
  next =>
    rw [← follow_two_eq_character h (by omega) (by decide) (by decide) (by omega) (by omega), hlead _ (by omega)]
  split at h
  next =>
    rw [← follow_three_eq_character h (by decide) (by decide) (by decide) (by decide) (by decide), hlead _ (by omega)]
  split at h
  next =>
    rw [← follow_three_eq_character h (by omega) (by decide) (by decide) (by omega) (by omega), hlead _ (by omega)]
  split at h
  next =>
    rw [← follow_three_eq_character h (by decide) (by decide) (by decide) (by decide) (by decide), hlead _ (by omega)]
  next => simp at h

/-! ## A text -/

@[simp] theorem encode_nil : encode [] = [] := rfl

@[simp] theorem encode_cons (c : Char) (s : List Char) : encode (c :: s) = String.utf8EncodeChar c ++ encode s :=
  List.flatMap_cons

@[simp] theorem encode_append (s t : List Char) : encode (s ++ t) = encode s ++ encode t := List.flatMap_append

/-- A piece of a text is not encoded as more bytes than the text. -/
theorem length_encode_le {s t : List Char} (h : s <:+: t) : (encode s).length ≤ (encode t).length := by
  obtain ⟨before, after, rfl⟩ := h
  simp only [encode_append, List.length_append]
  omega

/-- Scanning takes the characters of an encoded text one after the other. -/
theorem scanOnto_encode (acc : List (Option Char)) (s : List Char) :
    scanOnto acc (encode s) = acc.reverse ++ s.map some := by
  induction s generalizing acc with
  | nil => simp [scanOnto]
  | cons c s ih =>
    obtain ⟨b, r, hbytes, hnext⟩ := next_encodeChar c (encode s)
    rw [encode_cons, hbytes, List.cons_append, scanOnto]
    split
    · next c' rest' hstep =>
      obtain ⟨rfl, rfl⟩ : c = c' ∧ encode s = rest' := by simpa using hnext.symm.trans hstep
      rw [ih]
      simp
    · next rest' hstep => exact absurd (hnext.symm.trans hstep) (by simp)

/-- The bytes of a text decode to the text. -/
theorem decode_encode (s : List Char) : decode (encode s) = some s := by
  rw [decode, scan, scanOnto_encode, List.reverse_nil, List.nil_append]
  induction s with
  | nil => rfl
  | cons c s ih => simp [ih]

/-- Nothing is replaced in the bytes of a text. -/
theorem decodeLossy_encode (s : List Char) : decodeLossy (encode s) = s := by
  have hscan : scan (encode s) = s.map some := by rw [scan, scanOnto_encode, List.reverse_nil, List.nil_append]
  rw [decodeLossy, hscan, List.map_map]
  exact List.map_id s

/-- Scanning puts what it reads behind what was read before, and if it reads characters only, the bytes are their encoding. -/
theorem scanOnto_eq_append (acc : List (Option Char)) (bytes : List UInt8) :
    ∃ read, scanOnto acc bytes = acc.reverse ++ read ∧ ∀ s : List Char, read = s.map some → bytes = encode s := by
  -- What is read is told apart from what was read before, so that the induction goes through as the latter grows.
  fun_induction scanOnto acc bytes with
  | case1 acc =>
    refine ⟨[], by simp, fun s hs => ?_⟩
    rw [List.map_eq_nil_iff.1 hs.symm, encode_nil]
  | case2 acc b r c rest hstep ih =>
    obtain ⟨read, heq, hread⟩ := ih
    refine ⟨some c :: read, by simp [heq], fun s hs => ?_⟩
    obtain ⟨c', s', rfl, hc, hs'⟩ := List.map_eq_cons_iff.1 hs.symm
    obtain rfl := Option.some.inj hc
    rw [encodeChar_of_next hstep, hread s' hs'.symm, encode_cons]
  | case3 acc b r rest hstep ih =>
    obtain ⟨read, heq, -⟩ := ih
    refine ⟨none :: read, by simp [heq], fun s hs => ?_⟩
    obtain ⟨c', s', rfl, hc, -⟩ := List.map_eq_cons_iff.1 hs.symm
    nomatch hc

/-- Optional characters that are all there are those of a text. -/
theorem mapM_id_eq_some {read : List (Option Char)} {s : List Char} (h : read.mapM id = some s) : read = s.map some := by
  induction read generalizing s with
  | nil =>
    obtain rfl : s = [] := by simpa using h.symm
    rfl
  | cons c read ih =>
    obtain ⟨c', rfl, s', hs', rfl⟩ : ∃ c', c = some c' ∧ ∃ s', read.mapM id = some s' ∧ c' :: s' = s := by
      simpa [List.mapM_cons, Option.bind_eq_some_iff] using h
    rw [ih hs', List.map_cons]

/-- Bytes decode to a text exactly when they are its encoding. -/
theorem decode_eq_some_iff {bytes : List UInt8} {s : List Char} : decode bytes = some s ↔ bytes = encode s := by
  constructor
  · intro h
    obtain ⟨read, heq, hread⟩ := scanOnto_eq_append [] bytes
    have hscan : scan bytes = read := heq
    rw [decode, hscan] at h
    exact hread s (mapM_id_eq_some h)
  · rintro rfl
    exact decode_encode s

/-- An ASCII character is a byte of its own, which is part of the bytes of no other character. -/
theorem ascii_mem_encodeChar_iff {a : Char} (h : a.toNat < 0x80) (c : Char) :
    UInt8.ofNat a.toNat ∈ String.utf8EncodeChar c ↔ a = c := by
  have hval : c.val.toNat = c.toNat := rfl
  have hvalid : c.toNat < 0xD800 ∨ 0xDFFF < c.toNat ∧ c.toNat < 0x110000 := c.valid
  rw [← Char.toNat_inj]
  simp only [String.utf8EncodeChar, hval]
  generalize c.toNat = v at hvalid
  split_ifs
  all_goals
    simp only [List.mem_cons, List.not_mem_nil, or_false, ← UInt8.toNat_inj, UInt8.toNat_ofNat']
    omega

/-- The byte of an ASCII character is part of an encoded text only where the text has the character. -/
theorem ascii_mem_encode_iff {a : Char} (h : a.toNat < 0x80) (s : List Char) : UInt8.ofNat a.toNat ∈ encode s ↔ a ∈ s := by
  simp [encode, List.mem_flatMap, ascii_mem_encodeChar_iff h]

/-- Bytes that end in the byte of an ASCII character encode a text only if the text ends in that character. -/
theorem exists_of_encode_eq_append {a : Char} (h : a.toNat < 0x80) {s : List Char} {bytes : List UInt8}
    (heq : encode s = bytes ++ [UInt8.ofNat a.toNat]) : ∃ t, s = t ++ [a] ∧ bytes = encode t := by
  obtain rfl | ⟨t, c, hs⟩ := List.eq_nil_or_concat s
  · simp at heq
  · obtain rfl : s = t ++ [c] := hs.trans List.concat_eq_append
    have hchar : encode (t ++ [c]) = encode t ++ String.utf8EncodeChar c := by simp
    rw [hchar] at heq
    have hlast : (String.utf8EncodeChar c).getLast? = some (UInt8.ofNat a.toNat) := by
      obtain ⟨b, r, hb, -⟩ := next_encodeChar c []
      have hends := congrArg List.getLast? heq
      rw [List.getLast?_append, List.getLast?_append, hb, List.getLast?_cons] at hends
      rw [hb, List.getLast?_cons]
      simpa using hends
    obtain rfl : a = c := (ascii_mem_encodeChar_iff h c).1 (List.mem_of_getLast? hlast)
    have hsingle : String.utf8EncodeChar a = [UInt8.ofNat a.toNat] := by
      rw [← encodeChar_one h, Char.ofNat_toNat]
    rw [hsingle] at heq
    exact ⟨t, rfl, (List.append_cancel_right heq).symm⟩

/-- A zero byte is part of an encoded text only where the text has the character NUL. -/
theorem zero_mem_encode_iff (s : List Char) : 0 ∈ encode s ↔ '\x00' ∈ s := by
  have hnul : '\x00'.toNat < 0x80 := by decide
  exact ascii_mem_encode_iff hnul s

/-! ## A text as it is kept -/

/-- A byte array lists its bytes from any of them on. -/
theorem toList_loop (b : ByteArray) (i : Nat) (before : List UInt8) :
    ByteArray.toList.loop b i before = before.reverse ++ b.data.toList.drop i := by
  fun_induction ByteArray.toList.loop b i before with
  | case1 i before hlt ih =>
    have hi : i < b.data.toList.length := hlt
    rw [ih, List.drop_eq_getElem_cons hi]
    simp [ByteArray.get!, hlt]
  | case2 i before hge => simp [Nat.le_of_not_lt hge]

/-- The bytes that a text is kept as are its encoding. -/
theorem toUTF8_toList (s : String) : s.toUTF8.toList = encode s.toList := by
  have hkept : s.toUTF8 = (encode s.toList).toByteArray := by
    rw [encode, String.toUTF8_eq_toByteArray, ← String.ofList_toList (s := s), String.toByteArray_ofList, List.utf8Encode,
      String.toList_ofList]
  rw [hkept, ByteArray.toList, toList_loop, List.toList_data_toByteArray]
  rfl

/-- The number of bytes that a text is kept as is that of its encoding. -/
theorem length_encode (s : String) : (encode s.toList).length = s.utf8ByteSize := by
  rw [← String.size_toByteArray]
  conv => rhs; rw [← String.ofList_toList (s := s), String.toByteArray_ofList, List.utf8Encode, List.size_toByteArray]
  rfl

end LibraryGuard.Text.Utf8

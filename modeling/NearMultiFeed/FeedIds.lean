import Mathlib.Data.List.Forall2
import Mathlib.Data.Nat.Digits.Lemmas
import NearMultiFeed.Reads

/-!
# Feed ids as text

`parse_feed_id` checks length and prefix on bytes and leaves the digits to the
library parser. Which strings that accepts, and that an id and its text name the
same feed.
-/
namespace NearMultiFeed

/-! ## Digits -/

/-- The characters a hex digit may be written with. -/
def hexChars : List Char := "0123456789abcdefABCDEF".toList

/-- A list of characters shows hex digits, letters in either case. -/
structure Spells (cs : List Char) (ds : List ℕ) : Prop where
  digits : ∀ d ∈ ds, d < 16
  shown : cs.map Char.toLower = ds.map Nat.digitChar

theorem hexDigit_lt {b : UInt8} {d : ℕ} (h : hexDigit b = some d) : d < 16 ∧ b.toNat < 128 := by
  simp only [hexDigit, UInt8.le_iff_toNat_le] at h
  split_ifs at h with digit lower upper
  · simp only [Option.some.injEq, UInt8.reduceToNat] at h digit
    omega
  · simp only [Option.some.injEq, UInt8.reduceToNat] at h lower
    omega
  · simp only [Option.some.injEq, UInt8.reduceToNat] at h upper
    omega

/-- The sixteen digits in both cases, among the ASCII characters. -/
theorem hexDigit_table : ∀ n < 128, ∀ d < 16,
    (hexDigit (UInt8.ofNat n) = some d ↔ (Char.ofNat n).toLower = Nat.digitChar d) := by
  decide +kernel

theorem hexChars_table : ∀ n < 128,
    (Char.ofNat n ∈ hexChars ↔ ∃ d < 16, (Char.ofNat n).toLower = Nat.digitChar d) := by
  decide +kernel

theorem toNat_lt_of_toLower {c : Char} (h : c.toLower.toNat < 128) : c.toNat < 128 := by
  by_cases upper : c.val ≥ 'A'.val ∧ c.val ≤ 'Z'.val
  · have below : c.toNat ≤ 90 := UInt32.le_iff_toNat_le.mp upper.2
    omega
  · have same : c.toLower = c := dif_neg upper
    rwa [same] at h

theorem hexDigit_char {c : Char} (ascii : c.toNat < 128) {d : ℕ} (small : d < 16) :
    hexDigit c.toUInt8 = some d ↔ c.toLower = Nat.digitChar d := by
  have entry := hexDigit_table c.toNat ascii d small
  rwa [Char.ofNat_toNat] at entry

/-- A character that shows a digit is an ASCII character. -/
theorem ascii_of_digit {c : Char} {d : ℕ} (small : d < 16) (shown : c.toLower = Nat.digitChar d) :
    c.toNat < 128 := by
  have low : ∀ d < 16, (Nat.digitChar d).toNat < 128 := by decide
  apply toNat_lt_of_toLower
  rw [shown]
  exact low d small

theorem mem_hexChars {c : Char} : c ∈ hexChars ↔ ∃ d < 16, c.toLower = Nat.digitChar d := by
  have entry (ascii : c.toNat < 128) := hexChars_table c.toNat ascii
  simp only [Char.ofNat_toNat] at entry
  constructor
  · intro h
    have low : hexChars.all (fun c => decide (c.toNat < 128)) = true := by decide
    exact (entry (of_decide_eq_true (List.all_eq_true.mp low c h))).mp h
  · intro h
    obtain ⟨d, small, shown⟩ := h
    exact (entry (ascii_of_digit small shown)).mpr ⟨d, small, shown⟩

theorem spells_nil {ds : List ℕ} : Spells [] ds ↔ ds = [] := by
  constructor
  · intro h
    exact List.map_eq_nil_iff.mp h.shown.symm
  · intro h
    subst h
    exact ⟨fun d hd => absurd hd List.not_mem_nil, rfl⟩

theorem spells_cons {c : Char} {cs : List Char} {ds : List ℕ} :
    Spells (c :: cs) ds ↔ ∃ d rest, ds = d :: rest ∧ (d < 16 ∧ c.toLower = Nat.digitChar d) ∧
      Spells cs rest := by
  constructor
  · intro h
    obtain ⟨digits, shown⟩ := h
    cases ds with
    | nil => cases shown
    | cons d rest =>
        rw [List.map_cons, List.map_cons, List.cons.injEq] at shown
        rw [List.forall_mem_cons] at digits
        exact ⟨d, rest, rfl, ⟨digits.1, shown.1⟩, digits.2, shown.2⟩
  · intro h
    obtain ⟨d, rest, same, ⟨small, first⟩, digits, shown⟩ := h
    subst same
    refine ⟨List.forall_mem_cons.mpr ⟨small, digits⟩, ?_⟩
    rw [List.map_cons, List.map_cons, first, shown]

theorem Spells.length_eq {cs : List Char} {ds : List ℕ} (h : Spells cs ds) :
    cs.length = ds.length := by
  have both := congrArg List.length h.shown
  rwa [List.length_map, List.length_map] at both

theorem Spells.ascii {cs : List Char} {ds : List ℕ} (h : Spells cs ds) :
    ∀ c ∈ cs, c.toNat < 128 := by
  intro c hc
  have image : c.toLower ∈ ds.map Nat.digitChar := by
    rw [← h.shown]
    exact List.mem_map_of_mem hc
  obtain ⟨d, hd, shown⟩ := List.mem_map.mp image
  exact ascii_of_digit (h.digits d hd) shown.symm

/-- The characters that show some digits are the hex characters. -/
theorem exists_spells {cs : List Char} : (∃ ds, Spells cs ds) ↔ ∀ c ∈ cs, c ∈ hexChars := by
  induction cs with
  | nil =>
      constructor
      · intro _ c hc
        cases hc
      · intro _
        exact ⟨[], spells_nil.mpr rfl⟩
  | cons c cs ih =>
      rw [List.forall_mem_cons, ← ih, mem_hexChars]
      constructor
      · intro h
        obtain ⟨ds, h⟩ := h
        obtain ⟨d, rest, -, first, h⟩ := spells_cons.mp h
        exact ⟨⟨d, first⟩, rest, h⟩
      · intro h
        obtain ⟨⟨d, first⟩, rest, h⟩ := h
        exact ⟨d :: rest, spells_cons.mpr ⟨d, rest, rfl, first, h⟩⟩

/-- The library parser reads the digits the characters show. -/
theorem spells_bytes {cs : List Char} {ds : List ℕ} (ascii : ∀ c ∈ cs, c.toNat < 128) :
    List.Forall₂ (fun b d => hexDigit b = some d) (cs.map Char.toUInt8) ds ↔ Spells cs ds := by
  induction cs generalizing ds with
  | nil => rw [List.map_nil, List.forall₂_nil_left_iff, spells_nil]
  | cons c cs ih =>
      obtain ⟨first, others⟩ := List.forall_mem_cons.mp ascii
      rw [List.map_cons, List.forall₂_cons_left_iff, spells_cons]
      constructor
      · intro h
        obtain ⟨d, rest, here, later, same⟩ := h
        have small := (hexDigit_lt here).1
        exact ⟨d, rest, same, ⟨small, (hexDigit_char first small).mp here⟩, (ih others).mp later⟩
      · intro h
        obtain ⟨d, rest, same, ⟨small, here⟩, later⟩ := h
        exact ⟨d, rest, (hexDigit_char first small).mpr here, (ih others).mpr later, same⟩

/-! ## Bytes and characters -/

theorem strBytes_inj {s t : String} (h : strBytes s = strBytes t) : s = t := by
  apply String.toByteArray_inj.mp
  apply ByteArray.ext
  exact Array.toList_inj.mp h

/-- An ASCII string has one byte for each character. -/
theorem strBytes_of_ascii {s : String} (ascii : ∀ c ∈ s.toList, c.toNat < 128) :
    strBytes s = s.toList.map Char.toUInt8 := by
  have single : ∀ c ∈ s.toList, String.utf8EncodeChar c = [c.toUInt8] := by
    intro c hc
    have low : c.val ≤ 0x7f := by
      apply UInt32.le_iff_toNat_le.mpr
      exact Nat.le_of_lt_succ (ascii c hc)
    exact String.utf8EncodeChar_eq_singleton (if_pos low)
  rw [strBytes, ← String.utf8Encode_toList, List.utf8Encode, List.toList_data_toByteArray,
    List.flatMap_congr single, List.map_eq_flatMap]

/-- A string is the ASCII characters its bytes are. -/
theorem strBytes_eq_iff {s : String} {cs : List Char} (ascii : ∀ c ∈ cs, c.toNat < 128) :
    strBytes s = cs.map Char.toUInt8 ↔ s.toList = cs := by
  have written : strBytes (String.ofList cs) = cs.map Char.toUInt8 := by
    have list : (String.ofList cs).toList = cs := String.toList_ofList
    rw [strBytes_of_ascii, list]
    rw [list]
    exact ascii
  constructor
  · intro h
    rw [strBytes_inj (h.trans written.symm), String.toList_ofList]
  · intro h
    subst h
    exact strBytes_of_ascii ascii

theorem char_table : ∀ n < 128, (Char.ofNat n).toNat = n ∧ (Char.ofNat n).toUInt8.toNat = n := by
  decide +kernel

/-- Bytes below 128 are characters. -/
theorem exists_chars {bs : List UInt8} (low : ∀ b ∈ bs, b.toNat < 128) :
    ∃ cs : List Char, bs = cs.map Char.toUInt8 ∧ ∀ c ∈ cs, c.toNat < 128 := by
  refine ⟨bs.map fun b => Char.ofNat b.toNat, ?_, ?_⟩
  · have same (b : UInt8) (hb : b ∈ bs) : (Char.toUInt8 ∘ fun b => Char.ofNat b.toNat) b = b := by
      apply UInt8.toNat_inj.mp
      exact (char_table b.toNat (low b hb)).2
    rw [List.map_map, List.map_congr_left same, List.map_id']
  · intro c hc
    obtain ⟨b, hb, shown⟩ := List.mem_map.mp hc
    rw [← shown, (char_table b.toNat (low b hb)).1]
    exact low b hb

/-! ## The library parser -/

/-- The digit loop, on digits too few to overflow. -/
theorem hexDigits_eq_some {bs : List UInt8} {acc n : ℕ}
    (fits : (acc + 1) * 16 ^ bs.length ≤ 2 ^ 32) :
    hexDigits acc bs = some n ↔ ∃ ds, List.Forall₂ (fun b d => hexDigit b = some d) bs ds ∧
      n = acc * 16 ^ bs.length + Nat.ofDigits 16 ds.reverse := by
  induction bs generalizing acc with
  | nil =>
      simp only [hexDigits, Option.some.injEq, List.forall₂_nil_left_iff, exists_eq_left,
        List.length_nil, pow_zero, mul_one, List.reverse_nil, Nat.ofDigits_nil, Nat.add_zero]
      exact eq_comm
  | cons b bs ih =>
      have unfolded : hexDigits acc (b :: bs) = (hexDigit b).bind fun d =>
          if acc * 16 + d < 2 ^ 32 then hexDigits (acc * 16 + d) bs else none := rfl
      have room {d : ℕ} (small : d < 16) : (acc * 16 + d + 1) * 16 ^ bs.length ≤ 2 ^ 32 := by
        rw [List.length_cons] at fits
        calc (acc * 16 + d + 1) * 16 ^ bs.length
            ≤ (acc + 1) * 16 * 16 ^ bs.length := Nat.mul_le_mul_right _ (by omega)
          _ = (acc + 1) * 16 ^ (bs.length + 1) := by ring
          _ ≤ 2 ^ 32 := fits
      have next {d : ℕ} (small : d < 16) : acc * 16 + d < 2 ^ 32 :=
        (Nat.le_mul_of_pos_right _ (Nat.pow_pos (by decide))).trans (room small)
      have value {d : ℕ} {ds : List ℕ} (len : bs.length = ds.length) :
          (acc * 16 + d) * 16 ^ bs.length + Nat.ofDigits 16 ds.reverse =
            acc * 16 ^ (b :: bs).length + Nat.ofDigits 16 (d :: ds).reverse := by
        rw [List.reverse_cons, Nat.ofDigits_append, Nat.ofDigits_singleton, List.length_reverse,
          List.length_cons, ← len]
        ring
      rw [unfolded, Option.bind_eq_some_iff]
      constructor
      · intro h
        obtain ⟨d, here, later⟩ := h
        have small := (hexDigit_lt here).1
        rw [if_pos (next small), ih (room small)] at later
        obtain ⟨ds, digits, total⟩ := later
        exact ⟨d :: ds, .cons here digits, total.trans (value digits.length_eq)⟩
      · intro h
        obtain ⟨_, digits, total⟩ := h
        cases digits with
        | @cons _ d _ ds here digits =>
            have small := (hexDigit_lt here).1
            refine ⟨d, here, ?_⟩
            rw [if_pos (next small), ih (room small)]
            exact ⟨ds, digits, total.trans (value digits.length_eq).symm⟩

/-- A leading plus is skipped; anything else has to be a digit. -/
theorem fromStrRadix16_eq_some {bs : List UInt8} {v : UInt32} :
    fromStrRadix16 bs = some v ↔ ∃ digits n, (bs = digits ∨ bs = 0x2b :: digits) ∧ digits ≠ [] ∧
      hexDigits 0 digits = some n ∧ v = UInt32.ofNat n := by
  have plus (rest : List UInt8) : hexDigits 0 (0x2b :: rest) = none := rfl
  unfold fromStrRadix16
  split
  · constructor
    · intro h
      cases h
    · intro h
      obtain ⟨digits, n, same | same, some_digits, -⟩ := h
      · exact absurd same.symm some_digits
      · cases same
  · constructor
    · intro h
      cases h
    · intro h
      obtain ⟨digits, n, same | same, some_digits, read, -⟩ := h
      · subst same
        rw [plus] at read
        cases read
      · cases same
        exact absurd rfl some_digits
  · rename_i digits other
    rw [Option.map_eq_some_iff]
    constructor
    · intro h
      obtain ⟨n, read, same⟩ := h
      exact ⟨digits, n, .inr rfl, fun none => other (by rw [none]), read, same.symm⟩
    · intro h
      obtain ⟨digits', n, same | same, -, read, value⟩ := h
      · subst same
        rw [plus] at read
        cases read
      · cases same
        exact ⟨n, read, value.symm⟩
  · rename_i none lone signed
    rw [Option.map_eq_some_iff]
    constructor
    · intro h
      obtain ⟨n, read, same⟩ := h
      exact ⟨bs, n, .inl rfl, none, read, same.symm⟩
    · intro h
      obtain ⟨digits, n, same | same, -, read, value⟩ := h
      · subst same
        exact ⟨n, read, value.symm⟩
      · exact absurd same (signed digits)

/-- The checks on bytes: ten of them, the first two being `0x`. -/
theorem parseFeedId_bytes {s : String} {v : UInt32} :
    parseFeedId s = .ok v ↔ ∃ bs, strBytes s = 0x30 :: 0x78 :: bs ∧ bs.length = 8 ∧
      fromStrRadix16 bs = some v := by
  have opening : strBytes "0x" = [0x30, 0x78] := by decide +kernel
  have parsed : parseFeedId s = .ok v ↔
      ((strBytes s).length = 10 ∧ [0x30, 0x78] <+: strBytes s) ∧
        fromStrRadix16 ((strBytes s).drop 2) = some v := by
    rw [parseFeedId, opening]
    simp only [Abort.bind_eq_ok, require_eq_ok, Bool.and_eq_true, beq_iff_eq,
      List.isPrefixOf_iff_prefix, exists_const, feedIdHexStrLen]
    cases fromStrRadix16 ((strBytes s).drop 2) with
    | none => simp only [Abort.throw_eq_error, reduceCtorEq]
    | some w => simp only [Abort.pure_eq_ok, Except.ok.injEq, Option.some.injEq]
  rw [parsed]
  constructor
  · intro h
    obtain ⟨⟨len, bs, whole⟩, read⟩ := h
    rw [← whole] at len read
    exact ⟨bs, whole.symm, by simpa using len, read⟩
  · intro h
    obtain ⟨bs, whole, len, read⟩ := h
    rw [whole]
    exact ⟨⟨by rw [List.length_cons, List.length_cons, len], bs, rfl⟩, read⟩

theorem low_of_digits {bs : List UInt8} {ds : List ℕ}
    (h : List.Forall₂ (fun b d => hexDigit b = some d) bs ds) : ∀ b ∈ bs, b.toNat < 128 := by
  induction h with
  | nil =>
      intro b hb
      cases hb
  | cons here _ ih => exact List.forall_mem_cons.mpr ⟨(hexDigit_lt here).2, ih⟩

/-- The library parser on at most eight digits, in characters. -/
theorem hexDigits_chars {digits : List UInt8} (short : digits.length ≤ 8) {n : ℕ} :
    hexDigits 0 digits = some n ↔ ∃ cs ds, digits = cs.map Char.toUInt8 ∧ Spells cs ds ∧
      n = Nat.ofDigits 16 ds.reverse := by
  have fits : (0 + 1) * 16 ^ digits.length ≤ 2 ^ 32 := by
    calc (0 + 1) * 16 ^ digits.length = 16 ^ digits.length := Nat.one_mul _
      _ ≤ 16 ^ 8 := Nat.pow_le_pow_right (by decide) short
      _ = 2 ^ 32 := by decide
  simp only [hexDigits_eq_some fits, Nat.zero_mul, Nat.zero_add]
  constructor
  · intro h
    obtain ⟨ds, read, value⟩ := h
    obtain ⟨cs, same, ascii⟩ := exists_chars (low_of_digits read)
    rw [same] at read
    exact ⟨cs, ds, same, (spells_bytes ascii).mp read, value⟩
  · intro h
    obtain ⟨cs, ds, same, spelled, value⟩ := h
    rw [same]
    exact ⟨ds, (spells_bytes spelled.ascii).mpr spelled, value⟩

/-- What `parse_feed_id` accepts, and the id it gives. -/
theorem parseFeedId_eq_ok {s : String} {v : UInt32} :
    parseFeedId s = .ok v ↔ ∃ cs ds, (s.toList = '0' :: 'x' :: cs ∧ cs.length = 8 ∨
      s.toList = '0' :: 'x' :: '+' :: cs ∧ cs.length = 7) ∧ Spells cs ds ∧
      v = UInt32.ofNat (Nat.ofDigits 16 ds.reverse) := by
  have plain {cs : List Char} (ascii : ∀ c ∈ cs, c.toNat < 128) :
      strBytes s = 0x30 :: 0x78 :: cs.map Char.toUInt8 ↔ s.toList = '0' :: 'x' :: cs := by
    have bytes : ('0' :: 'x' :: cs).map Char.toUInt8 = 0x30 :: 0x78 :: cs.map Char.toUInt8 := rfl
    rw [← bytes]
    apply strBytes_eq_iff
    simp only [List.forall_mem_cons]
    exact ⟨by decide, by decide, ascii⟩
  have signed {cs : List Char} (ascii : ∀ c ∈ cs, c.toNat < 128) :
      strBytes s = 0x30 :: 0x78 :: 0x2b :: cs.map Char.toUInt8 ↔
        s.toList = '0' :: 'x' :: '+' :: cs := by
    have low : ∀ c ∈ '+' :: cs, c.toNat < 128 := List.forall_mem_cons.mpr ⟨by decide, ascii⟩
    exact plain low
  rw [parseFeedId_bytes]
  constructor
  · intro h
    obtain ⟨bs, whole, len, read⟩ := h
    obtain ⟨digits, n, form, -, loop, value⟩ := fromStrRadix16_eq_some.mp read
    subst value
    have short : digits.length ≤ 8 := by
      rcases form with rfl | rfl
      · exact len.le
      · exact (Nat.le_succ _).trans len.le
    obtain ⟨cs, ds, rfl, spelled, rfl⟩ := (hexDigits_chars short).mp loop
    refine ⟨cs, ds, ?_, spelled, rfl⟩
    rcases form with rfl | rfl
    · rw [List.length_map] at len
      exact .inl ⟨(plain spelled.ascii).mp whole, len⟩
    · rw [List.length_cons, List.length_map] at len
      exact .inr ⟨(signed spelled.ascii).mp whole, Nat.succ.inj len⟩
  · intro h
    obtain ⟨cs, ds, form, spelled, rfl⟩ := h
    have some_digits (len : 0 < cs.length) : cs.map Char.toUInt8 ≠ [] := by
      intro none
      rw [List.map_eq_nil_iff.mp none] at len
      cases len
    have read (short : cs.length ≤ 8) : hexDigits 0 (cs.map Char.toUInt8) =
        some (Nat.ofDigits 16 ds.reverse) := by
      apply (hexDigits_chars _).mpr
      · exact ⟨cs, ds, rfl, spelled, rfl⟩
      · rwa [List.length_map]
    rcases form with ⟨shape, len⟩ | ⟨shape, len⟩
    · refine ⟨_, (plain spelled.ascii).mpr shape, by rw [List.length_map, len], ?_⟩
      exact fromStrRadix16_eq_some.mpr ⟨_, _, .inl rfl, some_digits (by omega),
        read (by omega), rfl⟩
    · refine ⟨_, (signed spelled.ascii).mpr shape, by rw [List.length_cons, List.length_map, len],
        ?_⟩
      exact fromStrRadix16_eq_some.mpr ⟨_, _, .inr rfl, some_digits (by omega),
        read (by omega), rfl⟩

/-! ## The grammar -/

/-- The documented form: `0x` and exactly eight hex digits. -/
def WellFormedId (s : String) : Prop :=
  ∃ digits, s.toList = '0' :: 'x' :: digits ∧ digits.length = 8 ∧ ∀ c ∈ digits, c ∈ hexChars

/-- `0x`, a plus sign and exactly seven hex digits. -/
def SignedId (s : String) : Prop :=
  ∃ digits, s.toList = '0' :: 'x' :: '+' :: digits ∧ digits.length = 7 ∧
    ∀ c ∈ digits, c ∈ hexChars

theorem parseFeedId_accepts {s : String} :
    (∃ v, parseFeedId s = .ok v) ↔ WellFormedId s ∨ SignedId s := by
  simp only [parseFeedId_eq_ok]
  constructor
  · intro h
    obtain ⟨_, cs, ds, ⟨shape, len⟩ | ⟨shape, len⟩, spelled, -⟩ := h
    · exact .inl ⟨cs, shape, len, exists_spells.mp ⟨ds, spelled⟩⟩
    · exact .inr ⟨cs, shape, len, exists_spells.mp ⟨ds, spelled⟩⟩
  · intro h
    rcases h with ⟨cs, shape, len, chars⟩ | ⟨cs, shape, len, chars⟩
    · obtain ⟨ds, spelled⟩ := exists_spells.mpr chars
      exact ⟨_, cs, ds, .inl ⟨shape, len⟩, spelled, rfl⟩
    · obtain ⟨ds, spelled⟩ := exists_spells.mpr chars
      exact ⟨_, cs, ds, .inr ⟨shape, len⟩, spelled, rfl⟩

/-- A plus sign is no digit. -/
theorem SignedId.not_wellFormed {s : String} (h : SignedId s) : ¬ WellFormedId s := by
  intro well
  obtain ⟨digits, shape, -, -⟩ := h
  obtain ⟨digits', shape', -, chars⟩ := well
  rw [shape, List.cons.injEq, List.cons.injEq] at shape'
  have plus : '+' ∈ hexChars := by
    apply chars
    rw [← shape'.2.2]
    exact List.mem_cons_self
  exact absurd plus (by decide)

/-- The parser keeps to the documented form except on a plus sign followed by
seven digits, which the library parser takes as a number. -/
theorem parseFeedId_grammar (s : String) :
    ((∃ v, parseFeedId s = .ok v) ↔ WellFormedId s) ↔ ¬ SignedId s := by
  rw [parseFeedId_accepts]
  constructor
  · intro exact_form signed
    exact signed.not_wellFormed (exact_form.mp (.inr signed))
  · intro unsigned
    exact or_iff_left unsigned

theorem parseFeedId_takes_plus :
    ¬ ((∃ v, parseFeedId "0x+1234567" = .ok v) ↔ WellFormedId "0x+1234567") := by
  intro exact_form
  have accepted : parseFeedId "0x+1234567" = .ok 0x1234567 := by decide +kernel
  obtain ⟨digits, shape, -, chars⟩ := exact_form.mp ⟨_, accepted⟩
  have listed : "0x+1234567".toList = ['0', 'x', '+', '1', '2', '3', '4', '5', '6', '7'] := by
    decide +kernel
  rw [listed, List.cons.injEq, List.cons.injEq] at shape
  have plus : '+' ∈ hexChars := by
    apply chars
    rw [← shape.2.2]
    exact List.mem_cons_self
  exact absurd plus (by decide)

/-! ## Ids and their texts -/

/-- `0x` and the eight digits of an id, most significant first, letters in either
case. -/
def Renders (id : UInt32) (text : String) : Prop :=
  ∃ cs, text.toList = '0' :: 'x' :: cs ∧
    cs.map Char.toLower = (Nat.digitsAppend 16 8 id.toNat).reverse.map Nat.digitChar

theorem Renders.parse {id : UInt32} {text : String} (h : Renders id text) :
    parseFeedId text = .ok id := by
  obtain ⟨cs, shape, shown⟩ := h
  have fits : id.toNat < 16 ^ 8 := id.toNat_lt
  have spelled : Spells cs (Nat.digitsAppend 16 8 id.toNat).reverse := by
    refine ⟨?_, shown⟩
    intro d hd
    exact Nat.lt_of_mem_digitsAppend (by decide) 8 d (List.mem_reverse.mp hd)
  have len : cs.length = 8 := by
    rw [spelled.length_eq, List.length_reverse, Nat.length_digitsAppend (by decide) 8 fits]
  have value : Nat.ofDigits 16 (Nat.digitsAppend 16 8 id.toNat) = id.toNat :=
    (Nat.setInvOn_digitsAppend_ofDigits (by decide) 8).2 fits
  apply parseFeedId_eq_ok.mpr
  refine ⟨cs, _, .inl ⟨shape, len⟩, spelled, ?_⟩
  rw [List.reverse_reverse, value, UInt32.ofNat_toNat]

theorem exists_renders (id : UInt32) : ∃ text, Renders id text := by
  let shown := (Nat.digitsAppend 16 8 id.toNat).reverse.map Nat.digitChar
  refine ⟨String.ofList ('0' :: 'x' :: shown), shown, String.toList_ofList, ?_⟩
  have lower : ∀ d < 16, (Nat.digitChar d).toLower = Nat.digitChar d := by decide
  rw [List.map_map]
  apply List.map_congr_left
  intro d hd
  exact lower d (Nat.lt_of_mem_digitsAppend (by decide) 8 d (List.mem_reverse.mp hd))

/-- The digits of a well-formed id, and the value the parser gives them. -/
theorem WellFormedId.parse {s : String} (h : WellFormedId s) :
    ∃ cs ds, s.toList = '0' :: 'x' :: cs ∧ ds.length = 8 ∧ Spells cs ds ∧
      parseFeedId s = .ok (UInt32.ofNat (Nat.ofDigits 16 ds.reverse)) := by
  obtain ⟨cs, shape, len, chars⟩ := h
  obtain ⟨ds, spelled⟩ := exists_spells.mpr chars
  have parsed := parseFeedId_eq_ok.mpr ⟨cs, ds, .inl ⟨shape, len⟩, spelled, rfl⟩
  exact ⟨cs, ds, shape, spelled.length_eq.symm.trans len, spelled, parsed⟩

/-- Two well-formed ids name one feed exactly if they differ in letter case at most. -/
theorem WellFormedId.same_feed_iff {a b : String} (ha : WellFormedId a) (hb : WellFormedId b) :
    (∃ id, parseFeedId a = .ok id ∧ parseFeedId b = .ok id) ↔
      a.toList.map Char.toLower = b.toList.map Char.toLower := by
  obtain ⟨cs, ds, shape, len, spelled, parsed⟩ := ha.parse
  obtain ⟨cs', ds', shape', len', spelled', parsed'⟩ := hb.parse
  have bound {l : List ℕ} (digits : ∀ d ∈ l, d < 16) (len : l.length = 8) :
      Nat.ofDigits 16 l.reverse < 2 ^ 32 := by
    have below := Nat.ofDigits_lt_base_pow_length (b := 16) (by decide)
      (fun d hd => digits d (List.mem_reverse.mp hd))
    rwa [List.length_reverse, len] at below
  have letters : a.toList.map Char.toLower = b.toList.map Char.toLower ↔
      ds.map Nat.digitChar = ds'.map Nat.digitChar := by
    rw [shape, shape', ← spelled.shown, ← spelled'.shown]
    simp only [List.map_cons, List.cons.injEq, true_and]
  rw [letters, parsed, parsed']
  constructor
  · intro h
    obtain ⟨id, first, second⟩ := h
    have ids := Except.ok.inj (first.trans second.symm)
    have values := congrArg UInt32.toNat ids
    rw [UInt32.toNat_ofNat_of_lt' (bound spelled.digits len),
      UInt32.toNat_ofNat_of_lt' (bound spelled'.digits len')] at values
    have lists : ds.reverse = ds'.reverse := by
      apply Nat.ofDigits_inj_of_len_eq (by decide) _ _ _ values
      · rw [List.length_reverse, List.length_reverse, len, len']
      · exact fun d hd => spelled.digits d (List.mem_reverse.mp hd)
      · exact fun d hd => spelled'.digits d (List.mem_reverse.mp hd)
    rw [List.reverse_inj.mp lists]
  · intro same
    -- the first text shows the digits of the second as well
    have again : Spells cs ds' := ⟨spelled'.digits, spelled.shown.trans same⟩
    have width : cs.length = 8 := spelled.length_eq.trans len
    refine ⟨UInt32.ofNat (Nat.ofDigits 16 ds'.reverse), ?_, rfl⟩
    rw [← parsed]
    exact parseFeedId_eq_ok.mpr ⟨cs, ds', .inl ⟨shape, width⟩, again, rfl⟩

namespace MultiFeed

variable {Feeds Roles Callers AccountId : Type} [DecidableEq AccountId]
  [LookupMap Feeds UInt32 StoredFeed] [LookupSet Roles AccountId]
  [IterableSet Callers AccountId]

/-- Every id has a text, every text of an id reads that id and fetches the price and
the timestamps stored under it, and two well-formed texts name one feed exactly if they
are equal up to letter case. -/
theorem feed_ids_addressable :
    (∀ id, ∃ text, Renders id text) ∧
    (∀ (s : MultiFeed Feeds Roles Callers AccountId) (ctx : VMContext AccountId) (id : UInt32)
      (text : String), Renders id text → parseFeedId text = .ok id ∧
        (s.onlyReadAccess ctx = .ok () → (s.step ⟨ctx, .fetch text⟩).2 =
          .success (.feed ((LookupMap.get s.feeds id).map fun feed : StoredFeed =>
            { price := feed.price, aggTs := feed.aggTs, onchainTs := feed.onchainTs })) [])) ∧
    (∀ a b : String, WellFormedId a → WellFormedId b →
      ((∃ id, parseFeedId a = .ok id ∧ parseFeedId b = .ok id) ↔
        a.toList.map Char.toLower = b.toList.map Char.toLower)) := by
  refine ⟨exists_renders, ?_, fun a b ha hb => ha.same_feed_iff hb⟩
  intro s ctx id text renders
  refine ⟨renders.parse, ?_⟩
  intro gate
  exact step_fetch.mpr ⟨_, fetch_eq_ok.mpr ⟨gate, id, renders.parse, rfl⟩, rfl, rfl⟩

end MultiFeed

end NearMultiFeed

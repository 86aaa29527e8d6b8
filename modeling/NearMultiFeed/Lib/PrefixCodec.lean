import NearMultiFeed.Lib.Abort
import NearMultiFeed.Lib.BigEndian

/-!
# Prefix codecs

A codec writes values as bytes and reads one value off the front of its input.
It carries the proof that reading is exact: a value that was written is read
back and nothing behind it is touched, and nothing else is ever read. Codecs are
closed under products, options, counted lists and renaming.
-/

/-- `ε` is the type of reasons a reader stops for. -/
structure PrefixCodec (ε α : Type) where
  /-- The values that can be written. -/
  Fits : α → Prop
  write : α → List UInt8
  read : List UInt8 → Except ε (α × List UInt8)
  read_write : ∀ a rest, Fits a → read (write a ++ rest) = .ok (a, rest)
  write_of_read : ∀ bytes a rest, read bytes = .ok (a, rest) → Fits a ∧ bytes = write a ++ rest

namespace PrefixCodec

variable {ε α β : Type}

section Laws
variable (c : PrefixCodec ε α)

theorem read_eq_ok {bytes rest : List UInt8} {a : α} :
    c.read bytes = .ok (a, rest) ↔ c.Fits a ∧ bytes = c.write a ++ rest := by
  constructor
  · exact c.write_of_read bytes a rest
  · intro h
    rw [h.2]
    exact c.read_write a rest h.1

/-- Where a value ends is decided by its own bytes. -/
theorem write_append_inj {a b : α} {rest rest' : List UInt8} (ha : c.Fits a) (hb : c.Fits b)
    (same : c.write a ++ rest = c.write b ++ rest') : a = b ∧ rest = rest' := by
  have first := c.read_write a rest ha
  rw [same, c.read_write b rest' hb] at first
  have both := Except.ok.inj first
  exact ⟨(Prod.mk.inj both).1.symm, (Prod.mk.inj both).2.symm⟩

theorem write_inj {a b : α} (ha : c.Fits a) (hb : c.Fits b) (same : c.write a = c.write b) :
    a = b := by
  have padded : c.write a ++ [] = c.write b ++ [] := by rw [same]
  exact (c.write_append_inj ha hb padded).1

/-- The whole input has to be one value; `leftover` is the error when it is more. -/
def decode (leftover : ε) (bytes : List UInt8) : Except ε α :=
  match c.read bytes with
  | .ok (a, []) => .ok a
  | .ok (_, _ :: _) => .error leftover
  | .error e => .error e

theorem decode_eq_ok {leftover : ε} {bytes : List UInt8} {a : α} :
    c.decode leftover bytes = .ok a ↔ c.Fits a ∧ bytes = c.write a := by
  have whole : c.decode leftover bytes = .ok a ↔ c.read bytes = .ok (a, []) := by
    rw [decode]
    cases c.read bytes with
    | error e => simp only [reduceCtorEq]
    | ok found =>
        obtain ⟨b, rest⟩ := found
        cases rest with
        | nil => simp only [Except.ok.injEq, Prod.mk.injEq, and_true]
        | cons byte rest => simp only [reduceCtorEq, Except.ok.injEq, Prod.mk.injEq, and_false]
  rw [whole, c.read_eq_ok, List.append_nil]

/-- Bytes behind a value are refused. -/
theorem decode_append (leftover : ε) {a : α} (ha : c.Fits a) {more : List UInt8}
    (some_more : more ≠ []) : c.decode leftover (c.write a ++ more) = .error leftover := by
  rw [decode, c.read_write a more ha]
  cases more with
  | nil => exact absurd rfl some_more
  | cons byte more => rfl

/-- A value that was cut short is refused. -/
theorem decode_cut (leftover : ε) {a : α} (ha : c.Fits a) {bytes cut : List UInt8}
    (some_cut : cut ≠ []) (whole : bytes ++ cut = c.write a) :
    ∃ e, c.decode leftover bytes = .error e := by
  cases result : c.decode leftover bytes with
  | error e => exact ⟨e, rfl⟩
  | ok b =>
      exfalso
      obtain ⟨hb, same⟩ := c.decode_eq_ok.mp result
      rw [same] at whole
      have padded : c.write b ++ cut = c.write a ++ [] := by rw [whole, List.append_nil]
      exact some_cut (c.write_append_inj hb ha padded).2

/-- What a written value is the start of, or is continued by, is refused. -/
theorem decode_of_prefix (leftover : ε) {a : α} (ha : c.Fits a) {bytes other : List UInt8}
    (whole : bytes = c.write a) (different : other ≠ bytes)
    (related : other <+: bytes ∨ bytes <+: other) : ∃ e, c.decode leftover other = .error e := by
  rcases related with shorter | longer
  · obtain ⟨cut, joined⟩ := shorter
    refine c.decode_cut leftover ha ?_ (joined.trans whole)
    intro nothing
    rw [nothing, List.append_nil] at joined
    exact different joined
  · obtain ⟨more, joined⟩ := longer
    refine ⟨leftover, ?_⟩
    rw [← joined, whole]
    apply c.decode_append leftover ha
    intro nothing
    rw [nothing, List.append_nil] at joined
    exact different joined.symm

end Laws

/-! ## Codecs -/

section Words

/-- The low `w` bytes of `n`, least significant first. -/
def littleEndian (w n : ℕ) : List UInt8 := (BigEndian.toBytes w n).reverse

@[simp] theorem length_littleEndian (w n : ℕ) : (littleEndian w n).length = w := by
  rw [littleEndian, List.length_reverse, BigEndian.length_toBytes]

/-- A number below `256 ^ w` in `w` bytes; `short` is the error when fewer are left. -/
def word (short : ε) (w : ℕ) : PrefixCodec ε ℕ where
  Fits n := n < 256 ^ w
  write := littleEndian w
  read bytes :=
    if w ≤ bytes.length then
      .ok (BigEndian.ofBytes (bytes.take w).reverse, bytes.drop w)
    else .error short
  read_write := by
    intro n rest fits
    have room : w ≤ (littleEndian w n ++ rest).length := by
      rw [List.length_append, length_littleEndian]
      exact Nat.le_add_right w _
    rw [if_pos room, List.take_left' (length_littleEndian w n),
      List.drop_left' (length_littleEndian w n), littleEndian, List.reverse_reverse,
      BigEndian.ofBytes_toBytes, Nat.mod_eq_of_lt fits]
  write_of_read := by
    intro bytes n rest found
    by_cases room : w ≤ bytes.length
    · rw [if_pos room] at found
      have both := Prod.mk.inj (Except.ok.inj found)
      have width : (bytes.take w).reverse.length = w := by
        rw [List.length_reverse, List.length_take, Nat.min_eq_left room]
      rw [← both.1, ← both.2]
      refine ⟨BigEndian.ofBytes_lt width, ?_⟩
      rw [littleEndian, BigEndian.toBytes_ofBytes width, List.reverse_reverse,
        List.take_append_drop]
    · rw [if_neg room] at found
      cases found

theorem write_word (short : ε) (w n : ℕ) : (word short w).write n = littleEndian w n := rfl

end Words

/-- The values of `c` under another name. -/
def rename (c : PrefixCodec ε α) (into : α → β) (back : β → α)
    (back_into : ∀ a, c.Fits a → back (into a) = a) (into_back : ∀ b, into (back b) = b) :
    PrefixCodec ε β where
  Fits b := c.Fits (back b)
  write b := c.write (back b)
  read bytes := (fun found => (into found.1, found.2)) <$> c.read bytes
  read_write := by
    intro b rest fits
    rw [c.read_write (back b) rest fits, Abort.map_ok, into_back]
  write_of_read := by
    intro bytes b rest found
    obtain ⟨⟨a, rest'⟩, first, same⟩ := Abort.map_eq_ok.mp found
    obtain ⟨fits, whole⟩ := c.write_of_read bytes a rest' first
    have both := Prod.mk.inj same
    rw [← both.1, ← both.2, back_into a fits]
    exact ⟨fits, whole⟩

theorem write_rename (c : PrefixCodec ε α) {into : α → β} {back : β → α}
    (back_into : ∀ a, c.Fits a → back (into a) = a) (into_back : ∀ b, into (back b) = b) (b : β) :
    (c.rename into back back_into into_back).write b = c.write (back b) := rfl

/-- One value and then the other. -/
def pair (c : PrefixCodec ε α) (d : PrefixCodec ε β) : PrefixCodec ε (α × β) where
  Fits v := c.Fits v.1 ∧ d.Fits v.2
  write v := c.write v.1 ++ d.write v.2
  read bytes := do
    let (a, bytes) ← c.read bytes
    let (b, bytes) ← d.read bytes
    return ((a, b), bytes)
  read_write := by
    intro v rest fits
    simp only [List.append_assoc, c.read_write v.1 _ fits.1, d.read_write v.2 rest fits.2,
      Abort.ok_bind, Abort.pure_eq_ok]
  write_of_read := by
    intro bytes v rest found
    obtain ⟨⟨a, bytes'⟩, first, later⟩ := Abort.bind_eq_ok.mp found
    obtain ⟨⟨b, bytes''⟩, second, same⟩ := Abort.bind_eq_ok.mp later
    cases same
    obtain ⟨fits, whole⟩ := c.write_of_read bytes a bytes' first
    obtain ⟨fits', whole'⟩ := d.write_of_read bytes' b rest second
    refine ⟨⟨fits, fits'⟩, ?_⟩
    rw [whole, whole', List.append_assoc]

theorem write_pair (c : PrefixCodec ε α) (d : PrefixCodec ε β) (v : α × β) :
    (c.pair d).write v = c.write v.1 ++ d.write v.2 := rfl

/-- A tag byte, 0 for no value and 1 in front of one. `badTag` is the error for
any other tag. -/
def option (short : ε) (badTag : UInt8 → ε) (c : PrefixCodec ε α) : PrefixCodec ε (Option α) where
  Fits v := ∀ a, v = some a → c.Fits a
  write
    | none => [0]
    | some a => 1 :: c.write a
  read
    | [] => .error short
    | tag :: bytes =>
      if tag = 0 then .ok (none, bytes)
      else if tag = 1 then (fun found => (some found.1, found.2)) <$> c.read bytes
      else .error (badTag tag)
  read_write := by
    intro v rest fits
    cases v with
    | none => rfl
    | some a =>
        have here : c.read (c.write a ++ rest) = .ok (a, rest) := c.read_write a rest (fits a rfl)
        have tag : (1 : UInt8) ≠ 0 := by decide
        simp only [List.cons_append, tag, if_false, if_true, here, Abort.map_ok]
  write_of_read := by
    intro bytes v rest found
    cases bytes with
    | nil => cases found
    | cons tag bytes =>
        by_cases zero : tag = 0
        · simp only [zero, if_true, Except.ok.injEq, Prod.mk.injEq] at found
          rw [← found.1, ← found.2, zero]
          exact ⟨fun a impossible => absurd impossible (by simp), rfl⟩
        · by_cases one : tag = 1
          · simp only [one, if_true] at found
            obtain ⟨⟨a, rest'⟩, first, same⟩ := Abort.map_eq_ok.mp found
            obtain ⟨fits, whole⟩ := c.write_of_read bytes a rest' first
            have both := Prod.mk.inj same
            rw [← both.1, ← both.2]
            refine ⟨?_, by rw [one, whole]; rfl⟩
            intro b same
            rw [← Option.some.inj same]
            exact fits
          · simp only [zero, one, if_false, reduceCtorEq] at found

theorem write_none (short : ε) (badTag : UInt8 → ε) (c : PrefixCodec ε α) :
    (c.option short badTag).write none = [0] := rfl

theorem write_some (short : ε) (badTag : UInt8 → ε) (c : PrefixCodec ε α) (a : α) :
    (c.option short badTag).write (some a) = 1 :: c.write a := rfl

section Lists
variable (c : PrefixCodec ε α)

/-- `n` values, one after the other. -/
def readMany : ℕ → List UInt8 → Except ε (List α × List UInt8)
  | 0, bytes => .ok ([], bytes)
  | n + 1, bytes => do
    let (a, bytes) ← c.read bytes
    let (as, bytes) ← readMany n bytes
    return (a :: as, bytes)

theorem readMany_eq_ok {n : ℕ} {bytes rest : List UInt8} {as : List α} :
    c.readMany n bytes = .ok (as, rest) ↔
      as.length = n ∧ (∀ a ∈ as, c.Fits a) ∧ bytes = as.flatMap c.write ++ rest := by
  induction n generalizing bytes as with
  | zero =>
      simp only [readMany, Except.ok.injEq, Prod.mk.injEq, List.length_eq_zero_iff]
      constructor
      · intro h
        rw [← h.1, h.2]
        exact ⟨rfl, fun a impossible => absurd impossible List.not_mem_nil, rfl⟩
      · intro h
        obtain ⟨rfl, -, whole⟩ := h
        exact ⟨rfl, whole⟩
  | succ n ih =>
      simp only [readMany, Abort.bind_eq_ok, Prod.exists, c.read_eq_ok, Abort.pure_eq_ok,
        Except.ok.injEq, Prod.mk.injEq]
      constructor
      · intro h
        obtain ⟨a, _, ⟨fits, whole⟩, as, _, later, rfl, rfl⟩ := h
        obtain ⟨count, all, rest_whole⟩ := ih.mp later
        refine ⟨?_, List.forall_mem_cons.mpr ⟨fits, all⟩, ?_⟩
        · rw [List.length_cons, count]
        · rw [whole, rest_whole, List.flatMap_cons, List.append_assoc]
      · intro h
        obtain ⟨count, all, whole⟩ := h
        cases as with
        | nil => cases count
        | cons a as =>
            obtain ⟨fits, all⟩ := List.forall_mem_cons.mp all
            rw [List.flatMap_cons, List.append_assoc] at whole
            exact ⟨a, _, ⟨fits, whole⟩, as, rest, ih.mpr ⟨Nat.succ.inj count, all, rfl⟩, rfl, rfl⟩

/-- The number of values and then the values. -/
def counted (count : PrefixCodec ε ℕ) : PrefixCodec ε (List α) where
  Fits as := count.Fits as.length ∧ ∀ a ∈ as, c.Fits a
  write as := count.write as.length ++ as.flatMap c.write
  read bytes := do
    let (n, bytes) ← count.read bytes
    c.readMany n bytes
  read_write := by
    intro as rest fits
    rw [List.append_assoc, count.read_write as.length _ fits.1, Abort.ok_bind]
    exact c.readMany_eq_ok.mpr ⟨rfl, fits.2, rfl⟩
  write_of_read := by
    intro bytes as rest found
    obtain ⟨⟨n, bytes'⟩, first, later⟩ := Abort.bind_eq_ok.mp found
    obtain ⟨fits, whole⟩ := count.write_of_read bytes n bytes' first
    obtain ⟨length, all, rest_whole⟩ := c.readMany_eq_ok.mp later
    rw [← length] at fits
    refine ⟨⟨fits, all⟩, ?_⟩
    rw [whole, rest_whole, length, List.append_assoc]

theorem write_counted (count : PrefixCodec ε ℕ) (as : List α) :
    (c.counted count).write as = count.write as.length ++ as.flatMap c.write := rfl

/-- Values of one width make a list of a known length. -/
theorem length_write_counted {count : PrefixCodec ε ℕ} {header width : ℕ}
    (header_width : ∀ n, (count.write n).length = header)
    (entry_width : ∀ a, (c.write a).length = width) (as : List α) :
    ((c.counted count).write as).length = header + width * as.length := by
  have entries : (as.map fun a => (c.write a).length) = as.map fun _ => width :=
    List.map_congr_left fun a _ => entry_width a
  rw [write_counted, List.length_append, header_width, List.length_flatMap, entries,
    List.map_const', List.sum_replicate_nat, Nat.mul_comm]

end Lists

end PrefixCodec

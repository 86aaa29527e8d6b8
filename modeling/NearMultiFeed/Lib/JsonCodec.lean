import Mathlib.Algebra.Group.Nat.Defs
import NearMultiFeed.Lib.Abort

/-!
# JSON codecs

JSON values and typed codecs for them. A reader takes members by name and may
round numbers: which numbers a value may hold is then part of what fits.
-/

/-- A JSON value; of the numbers, the naturals. -/
inductive Json where
  | null
  | bool (b : Bool)
  | num (n : ℕ)
  | str (s : String)
  | arr (items : List Json)
  | obj (members : List (String × Json))

/-- The value of a member. -/
def Json.member? (key : String) : Json → Option Json
  | .obj members => members.lookup key
  | _ => none

/-- A text form, with a reader that recovers what it was the text of. -/
structure Spelling (α : Type) where
  shown : α → String
  parsed : String → Option α
  parsed_shown : ∀ a, parsed (shown a) = some a

/-- A JSON form, with a reader that recovers what fits it. -/
structure JsonCodec (α : Type) where
  Fits : α → Prop
  write : α → Json
  read : Json → Option α
  read_write : ∀ a, Fits a → read (write a) = some a

namespace JsonCodec

variable {α β : Type}

section Laws
variable (c : JsonCodec α)

/-- A member, read. -/
def get (key : String) (j : Json) : Option α := (j.member? key).bind c.read

theorem get_eq_some {key : String} {j : Json} {a : α} (there : j.member? key = some (c.write a))
    (fits : c.Fits a) : c.get key j = some a := by
  rw [get, there, Option.bind_some, c.read_write a fits]

end Laws

/-! ## Codecs -/

def boolean : JsonCodec Bool where
  Fits _ := True
  write := .bool
  read
    | .bool b => some b
    | _ => none
  read_write _ _ := rfl

def text (spelling : Spelling α) : JsonCodec α where
  Fits _ := True
  write a := .str (spelling.shown a)
  read
    | .str s => spelling.parsed s
    | _ => none
  read_write a _ := spelling.parsed_shown a

/-- Strings as they are. -/
def string : JsonCodec String := text ⟨id, some, fun _ => rfl⟩

/-- Numbers for a reader that sees `double n` where `n` was written. -/
def number (double : ℕ → ℕ) : JsonCodec ℕ where
  Fits n := double n = n
  write := .num
  read
    | .num n => some (double n)
    | _ => none
  read_write _ fits := congrArg some fits

/-- A type that is written as another. -/
def via (c : JsonCodec β) (out : α → β) (back : β → Option α)
    (back_out : ∀ a, back (out a) = some a) : JsonCodec α where
  Fits a := c.Fits (out a)
  write a := c.write (out a)
  read j := (c.read j).bind back
  read_write := by
    intro a fits
    rw [c.read_write (out a) fits, Option.bind_some, back_out]

/-- `null` or a value. -/
def nullable (c : JsonCodec α) (solid : ∀ a, c.write a ≠ .null) : JsonCodec (Option α) where
  Fits a := ∀ b ∈ a, c.Fits b
  write
    | none => .null
    | some a => c.write a
  read
    | .null => some none
    | j => (c.read j).map some
  read_write := by
    intro a fits
    cases a with
    | none => rfl
    | some a =>
        have back := c.read_write a (fits a rfl)
        have written := solid a
        cases form : c.write a with
        | null => exact absurd form written
        | _ =>
            simp only [form] at back ⊢
            rw [back, Option.map_some]

def list (c : JsonCodec α) : JsonCodec (List α) where
  Fits l := ∀ a ∈ l, c.Fits a
  write l := .arr (l.map c.write)
  read
    | .arr items => items.mapM c.read
    | _ => none
  read_write := by
    intro l fits
    change (l.map c.write).mapM c.read = some l
    induction l with
    | nil => rfl
    | cons a l ih =>
        have head := c.read_write a (fits a List.mem_cons_self)
        have tail := ih fun b hb => fits b (List.mem_cons_of_mem a hb)
        rw [List.map_cons, List.mapM_cons, head, tail]
        rfl

end JsonCodec

/-! ## Doubles -/

/-- A natural number as the nearest binary64 number, ties to even. -/
def binary64 (n : ℕ) : ℕ :=
  if n < 2 ^ 53 then n
  else
    let unit := 2 ^ (n.log2 - 52)
    let q := n / unit
    let r := n % unit
    if r * 2 > unit ∨ (r * 2 = unit ∧ q % 2 = 1) then (q + 1) * unit else q * unit

theorem binary64_exact {n : ℕ} (small : n < 2 ^ 53) : binary64 n = n := if_pos small

example : binary64 (2 ^ 53 + 1) = 2 ^ 53 := by decide

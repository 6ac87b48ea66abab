import Mathlib.Data.Int.Notation
import Mathlib.Data.List.Infix

namespace Univiz.Data.Decimal

/-! Integers as decimal texts. -/

def strip (chars : List Char) : List Char :=
  ((chars.dropWhile Char.isWhitespace).reverse.dropWhile Char.isWhitespace).reverse

def digits (chars : List Char) : Option Nat :=
  if chars ≠ [] ∧ chars.all Char.isDigit = true then some (Nat.ofDigitChars 10 chars 0) else none

/-- Reads an integer.  White space around it and a sign are allowed. -/
def parse (text : String) : Option Int :=
  match strip text.toList with
  | '-' :: rest => (digits rest).map fun value : Nat => -(value : Int)
  | '+' :: rest => (digits rest).map fun value : Nat => (value : Int)
  | chars => (digits chars).map fun value : Nat => (value : Int)

def print (value : Int) : String := value.repr

theorem isWhitespace_of_isDigit {char : Char} (digit : char.isDigit = true) :
    char.isWhitespace = false := by
  simp only [Char.isDigit, ge_iff_le, Bool.and_eq_true, decide_eq_true_eq] at digit
  simp only [Char.isWhitespace, Bool.or_eq_false_iff, decide_eq_false_iff_not]
  refine ⟨⟨⟨?_, ?_⟩, ?_⟩, ?_⟩ <;>
  · rintro rfl
    revert digit
    decide

theorem dropWhile_isWhitespace {chars : List Char}
    (none : ∀ char ∈ chars.head?, char.isWhitespace = false) :
    chars.dropWhile Char.isWhitespace = chars := by
  cases chars with
  | nil => rfl
  | cons char rest => rw [List.dropWhile_cons, none char rfl]; rfl

theorem strip_eq {chars : List Char}
    (visible : ∀ char ∈ chars, char.isWhitespace = false) : strip chars = chars := by
  simp only [strip]
  rw [dropWhile_isWhitespace fun char member => visible char (List.mem_of_mem_head? member)]
  rw [dropWhile_isWhitespace, List.reverse_reverse]
  intro char member
  exact visible char (List.mem_reverse.mp (List.mem_of_mem_head? member))

variable {value : Nat}

theorem isDigit_of_mem {char : Char} (member : char ∈ value.repr.toList) :
    char.isDigit = true := by
  rw [Nat.toList_repr] at member
  exact Nat.isDigit_of_mem_toDigits (by decide) (by decide) member

theorem digits_repr : digits value.repr.toList = some value := by
  have present : value.repr.toList ≠ [] := by
    rw [Nat.toList_repr]
    exact Nat.toDigits_ne_nil
  have all : value.repr.toList.all Char.isDigit = true :=
    List.all_eq_true.mpr fun char member => isDigit_of_mem member
  rw [digits, if_pos ⟨present, all⟩, Nat.toList_repr, Nat.ofDigitChars_ten_toDigits]

theorem parse_repr : parse value.repr = some (value : Int) := by
  simp only [parse]
  rw [strip_eq fun char member => isWhitespace_of_isDigit (isDigit_of_mem member)]
  have digit {char : Char} {rest : List Char} (shape : value.repr.toList = char :: rest) :
      char.isDigit = true := isDigit_of_mem (shape ▸ List.mem_cons_self)
  split
  · rename_i shape
    exact absurd (digit shape) (by decide)
  · rename_i shape
    exact absurd (digit shape) (by decide)
  · rw [digits_repr]
    rfl

theorem repr_inj {other : Nat} (same : value.repr = other.repr) : value = other := by
  have numbers := congrArg (fun text => digits text.toList) same
  simp only [digits_repr] at numbers
  exact Option.some.inj numbers

/-- A number is read off the front of a text where a colon follows it. -/
theorem repr_inj_of_append {other : Nat} {rest rest' : List Char}
    (same : value.repr.toList ++ ':' :: rest = other.repr.toList ++ ':' :: rest') :
    value = other := by
  have front : ∀ {value : Nat} {rest : List Char},
      (value.repr.toList ++ ':' :: rest).takeWhile Char.isDigit = value.repr.toList := by
    intro value rest
    have stop : (':' :: rest).takeWhile Char.isDigit = [] := rfl
    rw [List.takeWhile_append_of_pos fun char member => isDigit_of_mem member, stop,
      List.append_nil]
  have chars := congrArg (List.takeWhile Char.isDigit) same
  rw [front, front] at chars
  have numbers := congrArg digits chars
  rw [digits_repr, digits_repr] at numbers
  exact Option.some.inj numbers

theorem parse_minus_repr : parse ("-" ++ value.repr) = some (-(value : Int)) := by
  have chars : ("-" ++ value.repr).toList = '-' :: value.repr.toList := by
    simp
  simp only [parse]
  rw [chars, strip_eq]
  · simp only [digits_repr, Option.map_some]
  · intro char member
    rcases List.mem_cons.mp member with rfl | member
    · rfl
    · exact isWhitespace_of_isDigit (isDigit_of_mem member)

theorem parse_print (value : Int) : parse (print value) = some value := by
  cases value with
  | ofNat value => exact parse_repr
  | negSucc value => exact parse_minus_repr

end Univiz.Data.Decimal

namespace Univiz.Data

/-! Splitting a list at a separator of two symbols. -/

variable {α : Type} {first second : α} {before rest : List α}

theorem not_infix_tail {head : α} (plain : ¬ [first, second] <:+: head :: rest) :
    ¬ [first, second] <:+: rest :=
  fun inside => plain (inside.trans (List.suffix_cons head rest).isInfix)

theorem not_separator {head next : α} (plain : ¬ [first, second] <:+: head :: next :: rest) :
    ¬ (head = first ∧ next = second) := by
  rintro ⟨rfl, rfl⟩
  exact plain ⟨[], rest, rfl⟩

variable [DecidableEq α]

/-- What comes before the first separator, and what comes after it where there is one. -/
def cut (first second : α) : List α → List α × Option (List α)
  | [] => ([], none)
  | [last] => ([last], none)
  | head :: next :: rest =>
      if head = first ∧ next = second then ([], some rest)
      else ((head :: (cut first second (next :: rest)).1), (cut first second (next :: rest)).2)

theorem cut_plain {symbols : List α} (plain : ¬ [first, second] <:+: symbols) :
    cut first second symbols = (symbols, none) := by
  induction symbols with
  | nil => rfl
  | cons head rest ih =>
      cases rest with
      | nil => rfl
      | cons next rest =>
          rw [cut, if_neg (not_separator plain), ih (not_infix_tail plain)]

/-- A list without the separator is found again in front of one. -/
theorem cut_append (apart : first ≠ second) (plain : ¬ [first, second] <:+: before) :
    cut first second (before ++ first :: second :: rest) = (before, some rest) := by
  induction before with
  | nil => rw [List.nil_append, cut, if_pos ⟨rfl, rfl⟩]
  | cons head before ih =>
      have later := ih (not_infix_tail plain)
      cases before with
      | nil =>
          have straddles : ¬ (head = first ∧ first = second) := fun both => apart both.2
          rw [List.cons_append, List.nil_append, cut, if_neg straddles]
          rw [List.nil_append] at later
          rw [later]
      | cons next before =>
          rw [List.cons_append, List.cons_append, cut, if_neg (not_separator plain)]
          rw [List.cons_append] at later
          rw [later]

/-- Where what comes before it has no separator, one that joins two lists can be found again. -/
theorem append_separator_inj {before' rest' : List α} (apart : first ≠ second)
    (plain : ¬ [first, second] <:+: before) (plain' : ¬ [first, second] <:+: before')
    (same : before ++ first :: second :: rest = before' ++ first :: second :: rest') :
    before = before' ∧ rest = rest' := by
  have parts : cut first second (before ++ first :: second :: rest) = (before, some rest) :=
    cut_append apart plain
  rw [same, cut_append apart plain', Prod.mk.injEq, Option.some.injEq] at parts
  exact ⟨parts.1.symm, parts.2.symm⟩

end Univiz.Data

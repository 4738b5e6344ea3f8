import Mathlib.Data.List.Basic
import Mathlib.Data.Nat.ModEq

/-! Numbers as texts of a fixed number of digits, in any base up to sixteen. -/

namespace Digits

/-- The last `width` digits of `n`, most significant first. -/
def digits (base width n : ℕ) : List Char :=
  (List.range width).map fun i => Nat.digitChar (n / base ^ (width - 1 - i) % base)

def value? (c : Char) : Option ℕ :=
  if '0' ≤ c ∧ c ≤ '9' then some (c.toNat - '0'.toNat)
  else if 'a' ≤ c ∧ c ≤ 'f' then some (c.toNat - 'a'.toNat + 10)
  else if 'A' ≤ c ∧ c ≤ 'F' then some (c.toNat - 'A'.toNat + 10)
  else none

def shift (base n : ℕ) (c : Char) : Option ℕ :=
  ((value? c).filter (· < base)).map (base * n + ·)

def read (base : ℕ) (cs : List Char) : Option ℕ := cs.foldlM (shift base) 0

def field (base width : ℕ) (cs : List Char) : Option (ℕ × List Char) :=
  if width ≤ cs.length then (read base (cs.take width)).map fun n => (n, cs.drop width) else none

variable {base width n : ℕ} {c : Char} {rest : List Char}

@[simp] theorem length_digits : (digits base width n).length = width := by
  simp only [digits, List.length_map, List.length_range]

theorem digits_succ :
    digits base (width + 1) n = digits base width (n / base) ++ [Nat.digitChar (n % base)] := by
  have hshift : ∀ i ∈ List.range width, Nat.digitChar (n / base ^ (width + 1 - 1 - i) % base) =
      Nat.digitChar (n / base / base ^ (width - 1 - i) % base) := by
    intro i hi
    have hexponent : width + 1 - 1 - i = (width - 1 - i) + 1 := by
      have hlt := List.mem_range.mp hi
      omega
    rw [hexponent, pow_succ', Nat.div_div_eq_div_mul]
  unfold digits
  rw [List.range_succ, List.map_append, List.map_congr_left hshift]
  simp

theorem digits_add (more : ℕ) :
    digits base (more + width) n = digits base more (n / base ^ width) ++ digits base width n := by
  induction width generalizing n with
  | zero =>
    rw [pow_zero, Nat.div_one]
    exact (List.append_nil _).symm
  | succ width ih =>
    have hdiv : n / base / base ^ width = n / base ^ (width + 1) := by
      rw [Nat.div_div_eq_div_mul, pow_succ']
    rw [← Nat.add_assoc, digits_succ, ih, digits_succ, List.append_assoc, hdiv]

theorem value?_digitChar : ∀ d < 16, value? (Nat.digitChar d) = some d := by decide

theorem shift_digitChar {m d : ℕ} (hbase : base ≤ 16) (hd : d < base) :
    shift base m (Nat.digitChar d) = some (base * m + d) := by
  unfold shift
  rw [value?_digitChar d (hd.trans_le hbase)]
  simp [hd]

theorem exists_of_mem_digits (hbase : 0 < base) (h : c ∈ digits base width n) :
    ∃ d < base, c = Nat.digitChar d := by
  obtain ⟨i, -, rfl⟩ := List.mem_map.mp h
  exact ⟨_, Nat.mod_lt _ hbase, rfl⟩

/-- Every character of such a text is a digit. -/
theorem isSome_value?_of_mem_digits (hpos : 0 < base) (hbase : base ≤ 16)
    (h : c ∈ digits base width n) : (value? c).isSome := by
  obtain ⟨d, hd, rfl⟩ := exists_of_mem_digits hpos h
  rw [value?_digitChar d (hd.trans_le hbase)]
  rfl

theorem read_digits (hpos : 0 < base) (hbase : base ≤ 16) :
    read base (digits base width n) = some (n % base ^ width) := by
  induction width generalizing n with
  | zero =>
    show some 0 = _
    rw [pow_zero, Nat.mod_one]
  | succ width ih =>
    have hlast := shift_digitChar (m := n / base % base ^ width) hbase (Nat.mod_lt n hpos)
    have hread : read base (digits base (width + 1) n) =
        (read base (digits base width (n / base))).bind fun m =>
          shift base m (Nat.digitChar (n % base)) := by
      unfold read
      rw [digits_succ, List.foldlM_append]
      simp only [List.foldlM_cons, List.foldlM_nil, bind_pure]
      rfl
    have hvalue : base * (n / base % base ^ width) + n % base = n % base ^ (width + 1) := by
      rw [pow_succ', Nat.mod_mul]
      omega
    rw [hread, ih, Option.bind_some, hlast, hvalue]

theorem field_digits (hpos : 0 < base) (hbase : base ≤ 16) (hn : n < base ^ width) :
    field base width (digits base width n ++ rest) = some (n, rest) := by
  have hlength : width ≤ (digits base width n ++ rest).length := by
    rw [List.length_append, length_digits]
    omega
  have htake : (digits base width n ++ rest).take width = digits base width n :=
    List.take_left' length_digits
  have hdrop : (digits base width n ++ rest).drop width = rest := List.drop_left' length_digits
  unfold field
  rw [if_pos hlength, htake, hdrop, read_digits hpos hbase, Nat.mod_eq_of_lt hn]
  rfl

end Digits

import Mathlib.Algebra.Ring.Nat
import Mathlib.Tactic.SplitIfs

/-!
# The download progress line

`update_progress` of `update-helper.cpp`. The percentage is computed in 32-bit
unsigned arithmetic and narrowed to a byte; the bar is a loop over an 8-bit
index, with two static bytes that turn the cell after the filled ones.
-/
namespace SimpleCloudClient.Update

/-- One call of `printf`: the format and what it is given. -/
structure Printf where
  format : String
  args : List Nat
deriving DecidableEq, Repr

def text (format : String) : Printf := ⟨format, []⟩

/-- The static locals `old_max` and `counter` of `update_progress`. -/
structure Spinner where
  oldMax : UInt8
  counter : UInt8
deriving DecidableEq, Repr

def Spinner.turn (s : Spinner) (index : UInt8) : Spinner :=
  if index = s.oldMax then { s with counter := s.counter + 1 }
  else { oldMax := index, counter := 0 }

def Spinner.glyph (s : Spinner) : Printf :=
  if s.counter % 4 = 0 then text "/"
  else if s.counter % 4 = 1 then text "-"
  else if s.counter % 4 = 2 then text "\\"
  else text "|"

/-- The body of the loop over the cells of the bar. -/
def cell (percent index : UInt8) (s : Spinner) : Printf × Spinner :=
  if index < percent / 2 then (text "+", s)
  else if index = percent / 2 then ((s.turn index).glyph, s.turn index)
  else (text " ", s)

/-- `for (uint8_t index = 0; index < 50; index++)`. -/
def bar (percent index : UInt8) (s : Spinner) : List Printf × Spinner :=
  if index < 50 then
    let first := cell percent index s
    let rest := bar percent (index + 1) first.2
    (first.1 :: rest.1, rest.2)
  else ([], s)
termination_by 50 - index.toNat
decreasing_by
  have : index.toNat < 50 := by simpa [UInt8.lt_iff_toNat_lt] using ‹index < 50›
  simp only [UInt8.toNat_add, UInt8.toNat_one]
  omega

/-- `uint8_t percent = progress * 100 / total;`, undefined where `total` is 0. -/
def percent (progress total : UInt32) : Option UInt8 :=
  if total = 0 then none else some (progress * 100 / total).toUInt8

/-- `if (progress == total) { printf("\r\nDownload completed\r\n"); }`. -/
def completed (progress total : UInt32) : List Printf :=
  if progress = total then [text "\r\nDownload completed\r\n"] else []

/-- `traced`: one of the trace macros is on, and the line is printed without the bar. -/
def updateProgress (traced : Bool) (progress total : UInt32) (s : Spinner) :
    Option (List Printf × Spinner) := do
  let percent ← percent progress total
  if traced then
    return (⟨"Downloading: %d %%\r\n", [percent.toNat]⟩ :: completed progress total, s)
  else
    let cells := bar percent 0 s
    return (text "\rDownloading: [" :: cells.1 ++
      ⟨"] %d %%", [percent.toNat]⟩ :: completed progress total, cells.2)

/-! ## The percentage -/

variable {progress total : UInt32}

theorem quotient_lt (covered : progress ≤ total) :
    progress.toNat * 100 % 2 ^ 32 / total.toNat < 256 := by
  have le : progress.toNat ≤ total.toNat := covered
  by_cases fits : progress.toNat * 100 < 2 ^ 32
  · have : progress.toNat * 100 / total.toNat ≤ 100 :=
      Nat.div_le_of_le_mul (by omega)
    rw [Nat.mod_eq_of_lt fits]
    omega
  · have : progress.toNat * 100 % 2 ^ 32 < 2 ^ 32 := Nat.mod_lt _ (by decide)
    refine (Nat.div_lt_iff_lt_mul (by omega)).mpr ?_
    omega

/-- The narrowing to a byte loses nothing, the 32-bit product may. -/
theorem percent_eq (covered : progress ≤ total) (positive : 0 < total) :
    ∃ p, percent progress total = some p ∧
      p.toNat = progress.toNat * 100 % 2 ^ 32 / total.toNat := by
  have nonzero : total ≠ 0 := by
    intro zero
    simp [zero] at positive
  refine ⟨_, if_neg nonzero, ?_⟩
  have small := quotient_lt covered
  simp only [UInt32.toNat_toUInt8, UInt32.toNat_div, UInt32.toNat_mul, UInt32.reduceToNat]
  exact Nat.mod_eq_of_lt small

/-- A product that wraps is short of at least one whole `total`. -/
theorem wrapped_quotient_ne (covered : progress ≤ total)
    (wraps : 2 ^ 32 ≤ progress.toNat * 100) :
    progress.toNat * 100 % 2 ^ 32 / total.toNat ≠ 100 * progress.toNat / total.toNat := by
  have le : progress.toNat ≤ total.toNat := covered
  have below : total.toNat < 2 ^ 32 := total.toNat_lt
  have missing : progress.toNat * 100 % 2 ^ 32 + total.toNat ≤ 100 * progress.toNat := by omega
  have positive : 0 < total.toNat := by omega
  have next : (progress.toNat * 100 % 2 ^ 32 + total.toNat) / total.toNat ≤
      100 * progress.toNat / total.toNat := Nat.div_le_div_right missing
  rw [Nat.add_div_right _ positive] at next
  omega

theorem quotient_eq_iff (covered : progress ≤ total) :
    progress.toNat * 100 % 2 ^ 32 / total.toNat = 100 * progress.toNat / total.toNat ↔
      progress.toNat * 100 < 2 ^ 32 := by
  refine ⟨fun same => ?_, fun fits => by rw [Nat.mod_eq_of_lt fits, Nat.mul_comm]⟩
  exact Nat.lt_of_not_le fun wraps => wrapped_quotient_ne covered wraps same

/-! ## The bar -/

@[simp] theorem Spinner.glyph_args (s : Spinner) : s.glyph.args = [] := by
  unfold Spinner.glyph; split_ifs <;> rfl

@[simp] theorem Spinner.glyph_length (s : Spinner) : s.glyph.format.length = 1 := by
  unfold Spinner.glyph; split_ifs <;> rfl

theorem Spinner.glyph_ne (s : Spinner) : s.glyph ≠ text "+" := by
  unfold Spinner.glyph; split_ifs <;> decide

theorem plus_length : (text "+").format.length = 1 := by decide

theorem space_length : (text " ").format.length = 1 := by decide

/-- A cell shows one character, a `+` exactly before half the percentage. -/
theorem cell_spec (percent index : UInt8) (s : Spinner) :
    (cell percent index s).1.args = [] ∧ (cell percent index s).1.format.length = 1 ∧
      ((cell percent index s).1 = text "+" ↔ index.toNat < percent.toNat / 2) := by
  have before : index < percent / 2 ↔ index.toNat < percent.toNat / 2 := by
    simp [UInt8.lt_iff_toNat_lt]
  unfold cell
  split_ifs with filled here
  · exact ⟨rfl, plus_length, iff_of_true rfl (before.mp filled)⟩
  · exact ⟨Spinner.glyph_args _, Spinner.glyph_length _,
      iff_of_false (Spinner.glyph_ne _) (mt before.mpr filled)⟩
  · exact ⟨rfl, space_length, iff_of_false (by simp [text]) (mt before.mpr filled)⟩

/-- What the loop prints from `index` on. -/
theorem bar_spec (percent index : UInt8) (s : Spinner) :
    (bar percent index s).1.length = 50 - index.toNat ∧
      (∀ c ∈ (bar percent index s).1, c.args = [] ∧ c.format.length = 1) ∧
      ∀ (i : Nat) (inside : i < (bar percent index s).1.length),
        (bar percent index s).1[i] = text "+" ↔ index.toNat + i < percent.toNat / 2 := by
  fun_induction bar percent index s with
  | case1 index s more first rest ih =>
    have below : index.toNat < 50 := by simpa [UInt8.lt_iff_toNat_lt] using more
    have next : (index + 1).toNat = index.toNat + 1 := by
      simp only [UInt8.toNat_add, UInt8.toNat_one]
      omega
    obtain ⟨length, shape, filled⟩ := ih
    obtain ⟨args, one, plus⟩ := cell_spec percent index s
    refine ⟨by simp [rest, length, next]; omega, ?_, ?_⟩
    · intro c hc
      rcases List.mem_cons.mp hc with rfl | hc
      · exact ⟨args, one⟩
      · exact shape c hc
    · intro i inside
      cases i with
      | zero => simpa using plus
      | succ i =>
        have here := filled i (by simpa using inside)
        rw [next] at here
        simp only [List.getElem_cons_succ]
        exact here.trans (by omega)
  | case2 index s done =>
    have past : 50 ≤ index.toNat := by simpa [UInt8.lt_iff_toNat_lt] using done
    exact ⟨by simp; omega, by simp, by simp⟩

/-! ## The whole line -/

/-- The numbers an output shows. -/
def numbers (out : List Printf) : List Nat := out.flatMap Printf.args

/-- What the line is meant to show: the exact percentage, which no smaller
progress exceeds, and a bar of 50 cells filled up to half of it. -/
def ShowsProgress (traced : Bool) (progress total : UInt32) : Prop :=
  ∀ s, ∃ out s', updateProgress traced progress total s = some (out, s') ∧
    numbers out = [100 * progress.toNat / total.toNat] ∧
    (∀ less ≤ progress, ∀ s₀ out₀ s₀', updateProgress traced less total s₀ = some (out₀, s₀') →
      ∀ n₀ ∈ numbers out₀, ∀ n ∈ numbers out, n₀ ≤ n) ∧
    (traced = false → ∃ cells rest, out = text "\rDownloading: [" :: cells ++ rest ∧
      cells.length = 50 ∧ (∀ c ∈ cells, c.args = [] ∧ c.format.length = 1) ∧
      ∀ n ∈ numbers out, ∀ (i : Nat) (inside : i < cells.length),
        cells[i] = text "+" ↔ i < n / 2)

@[simp] theorem numbers_cons (first : Printf) (out : List Printf) :
    numbers (first :: out) = first.args ++ numbers out := by
  simp [numbers]

@[simp] theorem numbers_append (out out' : List Printf) :
    numbers (out ++ out') = numbers out ++ numbers out' := by
  simp [numbers]

@[simp] theorem numbers_bar (percent : UInt8) (s : Spinner) :
    numbers (bar percent 0 s).1 = [] := by
  have shape := (bar_spec percent 0 s).2.1
  exact List.flatMap_eq_nil_iff.mpr fun c hc => (shape c hc).1

@[simp] theorem numbers_completed (progress total : UInt32) :
    numbers (completed progress total) = [] := by
  unfold completed; split_ifs <;> rfl

/-- Whatever the spinner, the line shows the one number that `percent` is. -/
theorem updateProgress_eq (traced : Bool) (s : Spinner) {p : UInt8}
    (shown : percent progress total = some p) :
    ∃ out s', updateProgress traced progress total s = some (out, s') ∧ numbers out = [p.toNat] ∧
      (traced = false → out = text "\rDownloading: [" :: (bar p 0 s).1 ++
        ⟨"] %d %%", [p.toNat]⟩ :: completed progress total) := by
  unfold updateProgress
  rw [shown]
  cases traced with
  | true => exact ⟨_, s, rfl, by simp, nofun⟩
  | false => exact ⟨_, _, rfl, by simp [text], fun _ => rfl⟩

/-- The line is right exactly when the 32-bit product does not wrap and there is something
to divide by. -/
theorem showsProgress_iff (traced : Bool) (covered : progress ≤ total) :
    ShowsProgress traced progress total ↔ 0 < total ∧ progress.toNat * 100 < 2 ^ 32 := by
  constructor
  · intro right
    obtain ⟨out, s', run, exact_, -⟩ := right ⟨0, 0⟩
    have positive : 0 < total := by
      refine UInt32.lt_of_le_of_ne UInt32.zero_le ?_
      rintro rfl
      simp [updateProgress, percent] at run
    obtain ⟨p, shown, value⟩ := percent_eq covered positive
    obtain ⟨out₁, s₁, run₁, numbers₁, -⟩ := updateProgress_eq traced ⟨0, 0⟩ shown
    rw [run] at run₁
    cases run₁
    rw [exact_, List.singleton_inj] at numbers₁
    exact ⟨positive, (quotient_eq_iff covered).mp (by omega)⟩
  · rintro ⟨positive, fits⟩ s
    obtain ⟨p, shown, value⟩ := percent_eq covered positive
    have value_exact : p.toNat = 100 * progress.toNat / total.toNat :=
      value.trans ((quotient_eq_iff covered).mpr fits)
    obtain ⟨out, s', run, shows, drawn⟩ := updateProgress_eq traced s shown
    refine ⟨out, s', run, by rw [shows, value_exact], ?_, ?_⟩
    · intro less below s₀ out₀ s₀' run₀ n₀ hn₀ n hn
      have covered₀ : less ≤ total := UInt32.le_trans below covered
      have le : less.toNat ≤ progress.toNat := below
      obtain ⟨p₀, shown₀, value₀⟩ := percent_eq covered₀ positive
      obtain ⟨out₁, s₁, run₁, shows₀, -⟩ := updateProgress_eq traced s₀ shown₀
      rw [run₀] at run₁
      cases run₁
      rw [shows₀, List.mem_singleton] at hn₀
      rw [shows, List.mem_singleton] at hn
      have exact₀ := value₀.trans ((quotient_eq_iff covered₀).mpr (by omega))
      rw [hn₀, hn, exact₀, value_exact]
      exact Nat.div_le_div_right (by omega)
    · intro untraced
      obtain ⟨length, shape, filled⟩ := bar_spec p 0 s
      refine ⟨_, _, drawn untraced, length, shape, ?_⟩
      intro n hn i inside
      rw [shows, List.mem_singleton] at hn
      simpa [hn] using filled i inside

theorem showsProgress_small : ShowsProgress false 1 3 :=
  (showsProgress_iff false (by decide)).mpr ⟨by decide, by decide⟩

/-- The last byte of 42949673 takes the line from 99 % to 0 %; and a download of nothing
divides by zero. -/
theorem not_showsProgress_wrapped :
    (∃ out, updateProgress true 42949672 42949673 ⟨0, 0⟩ = some (out, ⟨0, 0⟩) ∧
      numbers out = [99]) ∧
    (∃ out, updateProgress true 42949673 42949673 ⟨0, 0⟩ = some (out, ⟨0, 0⟩) ∧
      numbers out = [0]) ∧
    updateProgress true 0 0 ⟨0, 0⟩ = none ∧
    ¬ ∀ (traced : Bool) (progress total : UInt32), progress ≤ total →
      ShowsProgress traced progress total := by
  refine ⟨⟨_, rfl, by decide⟩, ⟨_, rfl, by decide⟩, rfl, ?_⟩
  intro all
  obtain ⟨out, s', run, shows, -⟩ := all true 42949673 42949673 (by decide) ⟨0, 0⟩
  cases run
  exact absurd shows (by decide)

end SimpleCloudClient.Update

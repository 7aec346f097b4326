/-
Exponential backoff: the delay before a retry doubles with each retry
since things last went well, up to a bound.

A program with a backoff keeps the next delay in a variable. `Paced` says
what the variable and the delays of a whole run are, in terms of the log
of the run: some entries are waits, and some say that things went well.
-/
import StreamBrew.Lib.History
import Mathlib.Tactic.Ring

namespace Backoff

variable {α : Type*} {start max : Nat}

/-- The delay after a number of retries. -/
def delay (start max retries : Nat) : Nat := min (start * 2 ^ retries) max

theorem delay_zero (h : start ≤ max) : delay start max 0 = start := by
  unfold delay
  rw [Nat.pow_zero, Nat.mul_one, Nat.min_eq_left h]

theorem delay_succ (retries : Nat) :
    min (delay start max retries * 2) max = delay start max (retries + 1) := by
  have hpow : start * 2 ^ (retries + 1) = start * 2 ^ retries * 2 := by ring
  unfold delay
  rw [hpow]
  omega

-- =================================== the log

variable (wait : α → Option Nat) (resets : α → Bool)

/-- The number of waits since the last entry that resets the delay. -/
def streak (log : List α) : Nat :=
  log.foldl (fun n e =>
    if resets e then 0 else if (wait e).isSome then n + 1 else n) 0

/-- Each wait of a log is as long as the waits before it make it, and so
is the next one. -/
structure Paced (start max : Nat) (log : List α) (retry : Nat) : Prop where
  next : retry = delay start max (streak wait resets log)
  waits : History.Justified (fun before e => ∀ d ∈ wait e,
    d = delay start max (streak wait resets before)) log

variable {wait resets} {log : List α} {retry : Nat} {e : α}

theorem streak_snoc (log : List α) (e : α) :
    streak wait resets (log ++ [e])
      = if resets e then 0
        else if (wait e).isSome then streak wait resets log + 1
        else streak wait resets log := by
  unfold streak
  rw [List.foldl_append]
  rfl

theorem Paced.init (h : start ≤ max) :
    Paced wait resets start max [] start :=
  ⟨(delay_zero h).symm, History.justified_nil⟩

/-- What is neither a wait nor a reset changes nothing. -/
theorem Paced.snoc (h : Paced wait resets start max log retry)
    (hwait : wait e = none) (hreset : resets e = false) :
    Paced wait resets start max (log ++ [e]) retry := by
  constructor
  · rw [h.next, streak_snoc, hreset, hwait]
    rfl
  · refine h.waits.snoc ?_
    intro d hd
    rw [hwait] at hd
    cases hd

theorem Paced.snoc_reset (h : Paced wait resets start max log retry)
    (hle : start ≤ max) (hwait : wait e = none) (hreset : resets e = true) :
    Paced wait resets start max (log ++ [e]) start := by
  constructor
  · rw [streak_snoc, if_pos hreset, delay_zero hle]
  · refine h.waits.snoc ?_
    intro d hd
    rw [hwait] at hd
    cases hd

theorem Paced.snoc_wait (h : Paced wait resets start max log retry)
    (hwait : wait e = some retry) (hreset : resets e = false) :
    Paced wait resets start max (log ++ [e]) (min (retry * 2) max) := by
  constructor
  · rw [streak_snoc, hreset, hwait, h.next, delay_succ]
    rfl
  · refine h.waits.snoc ?_
    intro d hd
    rw [hwait] at hd
    cases hd
    exact h.next

end Backoff

import OpenVpn.Util.ScheduleRefine

/-!
# Arithmetic of times (`otime.h`)

A time is a number of seconds and a number of microseconds below one million. The sum
of two times takes its carry with a shift by 20 bits, and then once more by a million.

* `tvAdd`, `tvDelta` — the sum, and the time from one to another.
* `multiScheduleContextWakeup` — the wakeup of a client is the sum of the current time
  and the interval its context asks for.
* `tvAdd_micros` — what the sum is; `tv_add_exact_iff` — when it is exact.
* `updateNow`, `updateNowUsec` — the clock of the program, which `program_clock_stable` says
  never goes back.
-/

namespace OpenVpn

theorem low20_bounds (usec : Int) : 0 ≤ usec % 0x100000 ∧ usec % 0x100000 < 0x100000 :=
  ⟨Int.emod_nonneg _ (by decide), Int.emod_lt_of_pos _ (by decide)⟩

theorem carried_normal {usec : Int} (h : 1000000 ≤ usec % 0x100000) :
    0 ≤ usec % 0x100000 - 1000000 ∧ usec % 0x100000 - 1000000 < 1000000 := by
  have := low20_bounds usec
  omega

theorem kept_normal {usec : Int} (h : ¬ 1000000 ≤ usec % 0x100000) :
    0 ≤ usec % 0x100000 ∧ usec % 0x100000 < 1000000 := by
  have := low20_bounds usec
  omega

/-- `tv_add`; the mask of 20 bits is a remainder. -/
def tvAdd (dest src : Timeval) : Timeval :=
  let usec := dest.usec + src.usec
  let sec := dest.sec + src.sec + usec >>> (20 : Nat)
  if h : 1000000 ≤ usec % 0x100000 then ⟨sec + 1, usec % 0x100000 - 1000000, carried_normal h⟩
  else ⟨sec, usec % 0x100000, kept_normal h⟩

/-- The loop of `tv_delta`. -/
def tvBorrow (sec usec : Int) : Int × Int :=
  if usec < 0 then tvBorrow (sec - 1) (usec + 1000000) else (sec, usec)
termination_by (-usec).toNat
decreasing_by omega

theorem tvBorrow_eq (sec : Int) {usec : Int} (h : -1000000 < usec) :
    tvBorrow sec usec = if usec < 0 then (sec - 1, usec + 1000000) else (sec, usec) := by
  rw [tvBorrow]
  split
  · rw [tvBorrow, if_neg (by omega)]
  · rfl

theorem tvBorrow_normal (sec : Int) (t1 t2 : Timeval) :
    0 ≤ (tvBorrow sec (t2.usec - t1.usec)).2 ∧ (tvBorrow sec (t2.usec - t1.usec)).2 < 1000000 := by
  have h1 := t1.normal
  have h2 := t2.normal
  rw [tvBorrow_eq sec (by omega)]
  split
  · exact ⟨by omega, by omega⟩
  · exact ⟨by omega, by omega⟩

theorem zero_normal : (0 : Int) ≤ 0 ∧ (0 : Int) < 1000000 := ⟨Int.le_refl 0, by decide⟩

/-- `tv_delta`; the seconds are an `int`. -/
def tvDelta (t1 t2 : Timeval) : Timeval :=
  let sec := (t2.sec - t1.sec).bmod 0x100000000
  if (tvBorrow sec (t2.usec - t1.usec)).1 < 0 then ⟨0, 0, zero_normal⟩
  else ⟨(tvBorrow sec (t2.usec - t1.usec)).1, (tvBorrow sec (t2.usec - t1.usec)).2,
    tvBorrow_normal sec t1 t2⟩

def computeWakeupSigma (delta : Timeval) : Nat :=
  if delta.sec < 1 then (delta.usec >>> (3 : Nat)).toNat
  else if delta.sec < 600 then (delta.sec * 0x20000).toNat
  else 120000000

/-- `multi_schedule_context_wakeup` at time `now` for the interval `timeval`: the wakeup
of the instance, and the schedule. -/
def multiScheduleContextWakeup (fuel : Nat) (s : Schedule) (mi : Nat) (now timeval : Timeval)
    (draws : List Nat) : Timeval × Option Schedule :=
  let wakeup := tvAdd now timeval
  (wakeup, scheduleAddEntry fuel s mi wakeup (computeWakeupSigma timeval) draws)

/-! ## The sum -/

theorem tvAdd_micros (t d : Timeval) :
    (tvAdd t d).micros = t.micros + d.micros - if t.usec + d.usec < 0x100000 then 0 else 48576 := by
  have ht := t.normal
  have hd := d.normal
  have hsh : (t.usec + d.usec) >>> (20 : Nat) = (t.usec + d.usec) / 0x100000 := by
    rw [Int.shiftRight_eq_div_pow]
    rfl
  unfold tvAdd Timeval.micros
  dsimp only
  rw [hsh]
  by_cases hsm : t.usec + d.usec < 0x100000
  · rw [if_pos hsm]
    split
    · dsimp only
      omega
    · dsimp only
      omega
  · rw [if_neg hsm, dif_neg (by omega)]
    dsimp only
    omega

theorem Timeval.ext_micros {t d : Timeval} (h : t.micros = d.micros) : t = d := by
  have ht := t.normal
  have hd := d.normal
  unfold micros at h
  cases t
  cases d
  simp only [mk.injEq]
  dsimp only at h ht hd
  omega

theorem tvDelta_micros (t1 t2 : Timeval) (hle : t1.micros ≤ t2.micros)
    (hmax : t2.sec - t1.sec < 0x80000000) : (tvDelta t1 t2).micros = t2.micros - t1.micros := by
  have h1 := t1.normal
  have h2 := t2.normal
  unfold Timeval.micros at *
  have hsec : (t2.sec - t1.sec).bmod 0x100000000 = t2.sec - t1.sec :=
    Int.bmod_eq_of_le (by omega) (by omega)
  have hborrow := tvBorrow_eq (t2.sec - t1.sec) (by omega : -1000000 < t2.usec - t1.usec)
  have hv : (tvBorrow (t2.sec - t1.sec) (t2.usec - t1.usec)).1 * 1000000 +
      (tvBorrow (t2.sec - t1.sec) (t2.usec - t1.usec)).2 =
        t2.sec * 1000000 + t2.usec - (t1.sec * 1000000 + t1.usec) := by
    rw [hborrow]
    split
    · dsimp only
      omega
    · dsimp only
      omega
  have hnormal := tvBorrow_normal (t2.sec - t1.sec) t1 t2
  unfold tvDelta
  dsimp only
  rw [hsec, if_neg (by omega)]
  exact hv

/-- **Sums of times.** The sum, its inverse and the time with which an instance that is not
scheduled enters the schedule are exact iff the microseconds stay below 2^20. -/
theorem tv_add_exact_iff (t d : Timeval) (hd : 0 ≤ d.sec ∧ d.sec < 0x7FFFFFFF) :
    ((tvAdd t d).micros = t.micros + d.micros ↔ t.usec + d.usec < 0x100000) ∧
      (tvDelta t (tvAdd t d) = d ↔ t.usec + d.usec < 0x100000) ∧
      ∀ fuel s r tree mi draws, ScheduleOk s r tree → FreshDraw s mi (tvAdd t d) draws →
        tree.toList.length < fuel →
        ∃ s', multiScheduleContextWakeup fuel s mi t d draws = (tvAdd t d, some s') ∧
          (s.pri mi = 0 → ((s'.entry mi).tv.micros = t.micros + d.micros ↔
            t.usec + d.usec < 0x100000)) := by
  have ht := t.normal
  have hdn := d.normal
  have hsum := tvAdd_micros t d
  have hexact : (tvAdd t d).micros = t.micros + d.micros ↔ t.usec + d.usec < 0x100000 := by
    rw [hsum]
    split
    · exact iff_of_true (Int.sub_zero _) ‹_›
    · exact iff_of_false (by omega) ‹_›
  refine ⟨hexact, ?_, fun fuel s r tree mi draws hok hfresh hfuel => ?_⟩
  case refine_2 =>
    obtain ⟨s', _, hadd, -, ⟨-, htv⟩, -⟩ := hok.add (computeWakeupSigma d) hfresh hfuel
    refine ⟨s', by rw [multiScheduleContextWakeup, hadd], fun hpri => ?_⟩
    rcases htv with htv | ⟨-, hne, -⟩
    · rw [htv, hexact]
    · exact absurd hpri hne
  -- the sum is never before `t`: it loses less than it has carried
  have hdelta : (tvDelta t (tvAdd t d)).micros = (tvAdd t d).micros - t.micros := by
    have hnormal := (tvAdd t d).normal
    apply tvDelta_micros
    · rw [hsum]
      unfold Timeval.micros
      split
      · omega
      · omega
    · unfold Timeval.micros at hsum
      split at hsum
      · omega
      · omega
  rw [← hexact]
  constructor
  · intro h
    rw [h] at hdelta
    omega
  · intro h
    apply Timeval.ext_micros
    rw [hdelta, h]
    omega

theorem tv_add_exact_half_seconds :
    (tvAdd ⟨10, 500000, by decide⟩ ⟨1, 500000, by decide⟩).micros =
        (⟨10, 500000, by decide⟩ : Timeval).micros + (⟨1, 500000, by decide⟩ : Timeval).micros ∧
      tvDelta ⟨10, 500000, by decide⟩ (tvAdd ⟨10, 500000, by decide⟩ ⟨1, 500000, by decide⟩) =
        ⟨1, 500000, by decide⟩ :=
  have h := tv_add_exact_iff ⟨10, 500000, by decide⟩ ⟨1, 500000, by decide⟩ (by decide)
  ⟨h.1.mpr (by decide), h.2.1.mpr (by decide)⟩

/-- 10.6 s and 1.5 s make 12.051424 s. -/
theorem tv_add_loses_microseconds :
    tvAdd ⟨10, 600000, by decide⟩ ⟨1, 500000, by decide⟩ = ⟨12, 51424, by decide⟩ ∧
      (⟨12, 51424, by decide⟩ : Timeval).micros ≠
        (⟨10, 600000, by decide⟩ : Timeval).micros + (⟨1, 500000, by decide⟩ : Timeval).micros := by
  decide

/-! ## The clock of the program (`otime.c`) -/

/-- `now`, `now_usec` and `now_adj`. -/
structure Clock where
  now : Int
  usec : Int
  adj : Int

def updateNow (c : Clock) (systemTime : Int) : Clock :=
  let realTime := systemTime + c.adj
  if c.now < realTime then
    let overshoot := realTime - c.now - 1
    if 86400 < overshoot ∧ overshoot ≤ c.adj then
      { c with now := realTime - overshoot, adj := c.adj - overshoot }
    else { c with now := realTime }
  else if realTime < c.now - 10 then { c with adj := c.adj + (c.now - realTime) }
  else c

def updateNowUsec (c : Clock) (tv : Timeval) : Clock :=
  let c' := updateNow c tv.sec
  if c.now < c'.now ∨ c'.now = c.now ∧ c.usec < tv.usec then { c' with usec := tv.usec } else c'

/-- The clock is at most ten seconds ahead of the adjusted system time. -/
structure Clock.Follows (c : Clock) (systemTime : Int) : Prop where
  adj : 0 ≤ c.adj
  behind : 0 ≤ c.now - (systemTime + c.adj)
  close : c.now - (systemTime + c.adj) ≤ 10

theorem updateNow_spec {c : Clock} (h : 0 ≤ c.adj) {systemTime : Int} :
    (updateNow c systemTime).Follows systemTime ∧ c.now ≤ (updateNow c systemTime).now ∧
      (updateNow c systemTime).usec = c.usec := by
  unfold updateNow
  dsimp only
  split <;> split
  all_goals refine ⟨⟨?_, ?_, ?_⟩, ?_, rfl⟩ <;> grind

theorem updateNowUsec_spec {c : Clock} (h : 0 ≤ c.adj) {tv : Timeval} :
    (updateNowUsec c tv).Follows tv.sec ∧ (c.now < (updateNowUsec c tv).now ∨
      c.now = (updateNowUsec c tv).now ∧ c.usec ≤ (updateNowUsec c tv).usec) := by
  obtain ⟨hfol, hle, husec⟩ := updateNow_spec h
  unfold updateNowUsec
  dsimp only
  split
  · refine ⟨⟨hfol.adj, hfol.behind, hfol.close⟩, ?_⟩
    dsimp only
    omega
  · exact ⟨hfol, by omega⟩

theorem adj_nonneg_run {tvs : List Timeval} {c : Clock} (h : 0 ≤ c.adj) :
    0 ≤ (tvs.foldl updateNowUsec c).adj := by
  induction tvs generalizing c with
  | nil => exact h
  | cons tv tvs ih => exact ih (updateNowUsec_spec h).1.adj

/-- **The clock never goes back.** After any system times the next one moves the clock
forward or leaves it, the adjustment is not negative, and the clock follows. -/
theorem program_clock_stable (tvs : List Timeval) (tv : Timeval) :
    let c := tvs.foldl updateNowUsec ⟨0, 0, 0⟩
    (updateNowUsec c tv).Follows tv.sec ∧ (c.now < (updateNowUsec c tv).now ∨
      c.now = (updateNowUsec c tv).now ∧ c.usec ≤ (updateNowUsec c tv).usec) :=
  updateNowUsec_spec (adj_nonneg_run (Int.le_refl 0))

end OpenVpn

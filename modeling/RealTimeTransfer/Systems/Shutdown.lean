import RealTimeTransfer.Systems.RunTrace
import RealTimeTransfer.Timers.Timer

/-!
# The end of a run

Every return of `run` behind its check ends the sender, but for one: the timer that does not start.

* `Course`            where a run stands, by the calls of `start_timer` and `end_sender` it has
                      made;
* `shutdown_iff`      a run that returns has ended the sender, once and as its last call, if and
                      only if the timer has started;
* `not_shut_down`     a run that leaves the sender as it is.
-/

namespace RealTimeTransfer
open Machines Words

/-- the events `es` of a run have led to the point of `s` -/
inductive Course : List SystemEvent → RealTimeSystem → Prop where
  | entered {s : RealTimeSystem} : s.pc = .startTimer → Course [] s
  | refused {s : RealTimeSystem} (msg : String) : s.pc.isIdle = true →
      Course [.startTimer (some msg)] s
  | looping {s : RealTimeSystem} (l : List SystemEvent) : .endSender ∉ l → s.pc.inLoop = true →
      Course (.startTimer none :: l) s
  | ended {s : RealTimeSystem} (l : List SystemEvent) : .endSender ∉ l → s.pc.isIdle = true →
      Course (.startTimer none :: l ++ [.endSender]) s

section
variable {A : FastInts} {s t v : RealTimeSystem} {e : SystemEvent} {es : List SystemEvent}

theorem RealTimeSystem.Moves.endSender (h : s.Moves A e t) (hpc : s.pc.inLoop = true) :
    (e = .endSender ∧ t.pc.isIdle = true) ∨ (e ≠ .endSender ∧ t.pc.inLoop = true) := by
  cases h
  case ended r _ => exact .inl ⟨rfl, rfl⟩
  case called c _ _ =>
    refine .inr ⟨nofun, ?_⟩
    show (if c.stop then SystemPc.ending true else .send).inLoop = true
    cases c.stop <;> rfl
  case tolerated b _ =>
    refine .inr ⟨nofun, ?_⟩
    show (if b then SystemPc.doneTest else .toleranceSleep).inLoop = true
    cases b <;> rfl
  case disconnected | iterated | toleranceOver | slept | notSent | tested | skipping | keeping
      | skipStopped | skipped | sent | notAccepted | ticked | late =>
    exact .inr ⟨nofun, rfl⟩
  all_goals
    rename_i hpc'
    rw [hpc'] at hpc
    cases hpc

/-- **Every step of a run continues its course.** -/
theorem Course.step (h : Course es s) (hrun : InRun s e) (hs : s.step A e = some t) :
    Course (es ++ [e]) t := by
  cases h with
  | entered hpc =>
    rcases RealTimeSystem.step_startTimer hs hpc with ⟨rfl, hpc'⟩ | ⟨msg, rfl, hpc'⟩
    · exact .looping [] nofun (by rw [hpc']; rfl)
    · exact .refused msg (by rw [hpc']; rfl)
  | refused msg hidle => exact absurd (hidle.symm.trans hrun) nofun
  | looping l hl hin =>
    have moves : s.Moves A e t := by
      refine RealTimeSystem.step_moves (fun r hpc => ?_) hs
      rw [hpc] at hin
      cases hin
    rcases moves.endSender hin with ⟨rfl, hidle⟩ | ⟨hne, hin'⟩
    · exact .ended l hl hidle
    · refine .looping (l ++ [e]) (fun hmem => ?_) hin'
      rcases List.mem_append.mp hmem with hmem | hmem
      · exact hl hmem
      · exact hne (List.mem_singleton.mp hmem).symm
  | ended l hl hidle => exact absurd (hidle.symm.trans hrun) nofun

/-- the sender is ended once, behind all else -/
def EndsSender (es : List SystemEvent) : Prop := ∃ l, es = l ++ [.endSender] ∧ .endSender ∉ l

theorem not_endsSender_refused (msg : String) : ¬ EndsSender [.startTimer (some msg)] := by
  rintro ⟨l, hl, -⟩
  have hlast := congrArg List.getLast? hl
  rw [List.getLast?_concat] at hlast
  exact absurd (Option.some.inj hlast) nofun

/-- **The end of the sender.**  A `run` that is past its check and returns has ended the sender, by
its last call and by no other, if and only if `start_timer` returned true. -/
theorem shutdown_iff (hpc : v.pc = .startTimer) (hr : (system A).Runs InRun v es t)
    {r : Option Bool} (hret : t.pc = .idle r) :
    EndsSender es ↔ es.head? = some (.startTimer none) := by
  have course : Course es t := hr.follows Course (.entered hpc) fun _ _ _ _ hv hrun hs =>
    hv.step hrun hs
  cases course with
  | entered hpc' => cases hpc'.symm.trans hret
  | refused msg _ => exact ⟨fun h => absurd h (not_endsSender_refused msg), nofun⟩
  | looping l _ hin =>
    rw [hret] at hin
    cases hin
  | ended l hl _ =>
    refine ⟨fun _ => rfl, fun _ => ⟨.startTimer none :: l, rfl, fun hmem => ?_⟩⟩
    rcases List.mem_cons.mp hmem with hmem | hmem
    · cases hmem
    · exact hl hmem

end

/-- two iterations, then a stop -/
theorem shutdown_iff_stopped :
    ∃ v t, oneHertz.step FastInts.lp64 .run = some v ∧
      (system FastInts.lp64).Runs InRun v (.startTimer none :: keptThenSkipped) t ∧
      t.pc = .idle (some true) ∧ EndsSender (.startTimer none :: keptThenSkipped) := by
  have hrun : (oneHertz.step FastInts.lp64 .run).bind (fun v =>
      (((system FastInts.lp64).restrict InRun).run v (.startTimer none :: keptThenSkipped)).map
        fun t => (v.pc, t.pc)) = some (.startTimer, .idle (some true)) := by decide
  obtain ⟨v, hv, hrest⟩ := Option.bind_eq_some_iff.mp hrun
  obtain ⟨t, ht, he⟩ := Option.map_eq_some_iff.mp hrest
  obtain ⟨hpc, hret⟩ : v.pc = .startTimer ∧ t.pc = .idle (some true) := Prod.mk.inj he
  have hruns := Machine.Runs.of_restrict ht
  exact ⟨v, t, hv, hruns, hret, (shutdown_iff hpc hruns hret).mpr rfl⟩

/-- the timer is left running by another system: `run` returns, and the sender is not ended -/
theorem not_shut_down :
    ∃ v t, oneHertz.step FastInts.lp64 .run = some v ∧ v.pc = .startTimer ∧
      (system FastInts.lp64).Runs InRun v [.startTimer (some Timer.runningError)] t ∧
      t.pc = .idle (some false) ∧ t.initialized = false ∧
      ¬ EndsSender [.startTimer (some Timer.runningError)] := by
  have hrun : (oneHertz.step FastInts.lp64 .run).bind (fun v =>
      (((system FastInts.lp64).restrict InRun).run v [.startTimer (some Timer.runningError)]).map
        fun t => (v.pc, t.pc, t.initialized)) = some (.startTimer, .idle (some false), false) := by
    decide
  obtain ⟨v, hv, hrest⟩ := Option.bind_eq_some_iff.mp hrun
  obtain ⟨t, ht, he⟩ := Option.map_eq_some_iff.mp hrest
  obtain ⟨hpc, hret, hinit⟩ : v.pc = .startTimer ∧ t.pc = .idle (some false) ∧
      t.initialized = false := by simpa using he
  exact ⟨v, t, hv, hpc, Machine.Runs.of_restrict ht, hret, hinit, not_endsSender_refused _⟩

end RealTimeTransfer

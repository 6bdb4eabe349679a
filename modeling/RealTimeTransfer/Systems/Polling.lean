import RealTimeTransfer.Systems.RunSender

/-!
# The polling loop of send_before_run

The loop takes `time_limit_ms/2 + 1` off the limit, sleeps for that long and asks `is_send_done`.
The limit is spent exactly, in logarithmically many polls, whatever the answers are.

* `halve`              one round of the loop, on the limit;
* `Polled.step`        what one step of the call keeps;
* `polling_law`        the sleeps of a call, their number and its end.
-/

namespace RealTimeTransfer
open Machines Words

/-- the `sleeping_time` of a round, and the limit it leaves: no underflow, and the limit plus one is
at least halved -/
theorem halve {n : Nat} (h : n ≠ 0) : n / 2 + 1 ≤ n ∧ 2 * (n - (n / 2 + 1) + 1) ≤ n + 1 := by
  omega

/-- the sleeps requested, in ms -/
def sleepsMs (es : List SystemEvent) : List Nat :=
  es.filterMap fun e => match e with
    | .sleepMs n => some n
    | _ => none

theorem sleepsMs_append (es es' : List SystemEvent) :
    sleepsMs (es ++ es') = sleepsMs es ++ sleepsMs es' := List.filterMap_append

namespace SystemPc

/-- the sleep that has been taken off the limit, but not requested yet -/
def asked : SystemPc → List Nat
  | .beforeSleep n => [n]
  | _ => []

/-- the points of the loop -/
def inRounds : SystemPc → Bool
  | .beforeLoop | .beforeSleep _ | .beforePoll => true
  | _ => false

/-- the points after the loop -/
def afterLoop : SystemPc → Bool
  | .beforeTest | .beforeEnd | .idle _ => true
  | _ => false

/-- the steps made outside complete rounds -/
def spare : SystemPc → Nat
  | .beforeSend => 0
  | .beforeLoop => 1
  | .beforeSleep _ => 2
  | .beforePoll => 0
  | .beforeTest => 2
  | .beforeEnd => 3
  | _ => 4

theorem asked_afterLoop {pc : SystemPc} (h : pc.afterLoop = true) : pc.asked = [] := by
  cases pc with
  | beforeSleep n => cases h
  | _ => rfl

theorem spare_le (pc : SystemPc) : pc.spare ≤ 4 := by
  cases pc <;> simp [spare]

end SystemPc

theorem mem_sleepsMs {es : List SystemEvent} {n : Nat} (h : n ∈ sleepsMs es) :
    .sleepMs n ∈ es := by
  obtain ⟨e, he, hn⟩ := List.mem_filterMap.mp h
  cases e with
  | sleepMs m =>
    cases hn
    exact he
  | _ => cases hn

/-- a call with the limit `L`, after the steps `es` -/
structure Polled (L : Nat) (es : List SystemEvent) (s : RealTimeSystem) : Prop where
  point : s.pc = .beforeSend ∨ s.pc.inRounds = true ∨ s.pc.afterLoop = true
  spent : (sleepsMs es ++ s.pc.asked).sum + s.timeLimitMs = L
  halved : 2 ^ (sleepsMs es ++ s.pc.asked).length * (s.timeLimitMs + 1) ≤ L + 1
  going : s.pc.afterLoop = false → .isSendDone true ∉ es
  finished : s.pc.afterLoop = true → s.timeLimitMs = 0 ∨ .isSendDone true ∈ es
  steps : es.length ≤ 3 * (sleepsMs es).length + s.pc.spare

/-- the call has not returned -/
def NotReturned (s : RealTimeSystem) (_ : SystemEvent) : Prop := s.pc.isIdle = false

section
variable {A : FastInts} {L : Nat} {s t u v : RealTimeSystem} {e : SystemEvent}
  {es : List SystemEvent}

theorem RealTimeSystem.step_beforeLoop (hpc : s.pc = .beforeLoop) (hL : s.timeLimitMs < 2^A.w32)
    (hs : s.step A e = some t) : e = .tau ∧
      ((s.timeLimitMs = 0 ∧ t = s.goto .beforeTest) ∨
        ∃ n, n = s.timeLimitMs / 2 + 1 ∧ n ≤ s.timeLimitMs ∧
          t = { s with timeLimitMs := s.timeLimitMs - n, pc := .beforeSleep n }) := by
  unfold RealTimeSystem.step at hs
  rw [hpc] at hs
  cases e <;> try cases hs
  refine ⟨rfl, ?_⟩
  by_cases h : s.timeLimitMs = 0
  · rw [if_pos h] at hs
    cases hs
    exact .inl ⟨h, rfl⟩
  · rw [if_neg h] at hs
    cases hs
    right
    obtain ⟨hle, -⟩ := halve h
    have hn : toU A.w32 ((s.timeLimitMs / 2 + 1 : Nat) : Int) = s.timeLimitMs / 2 + 1 :=
      toU_of_lt (lt_of_le_of_lt hle hL)
    have hsub : toU A.w32 ((s.timeLimitMs : Int) - (s.timeLimitMs / 2 + 1 : Nat))
        = s.timeLimitMs - (s.timeLimitMs / 2 + 1) := by
      rw [← Nat.cast_sub hle]
      exact toU_of_lt (lt_of_le_of_lt (Nat.sub_le _ _) hL)
    refine ⟨s.timeLimitMs / 2 + 1, rfl, hle, ?_⟩
    rw [hn, hsub]

theorem Polled.limit_le (h : Polled L es s) : s.timeLimitMs ≤ L := by
  have hsum := h.spent
  omega

theorem Polled.quiet (h : Polled L es s) (hlimit : t.timeLimitMs = s.timeLimitMs)
    (hsleep : sleepsMs [e] = []) (hasked : s.pc.asked = []) (hasked' : t.pc.asked = [])
    (hpoint : t.pc.inRounds = true ∨ t.pc.afterLoop = true)
    (hgoing : t.pc.afterLoop = false → e ≠ .isSendDone true)
    (hstill : t.pc.afterLoop = false → s.pc.afterLoop = false)
    (hfinished : t.pc.afterLoop = true → s.pc.afterLoop = true ∨ s.timeLimitMs = 0 ∨
      e = .isSendDone true)
    (hsteps : s.pc.spare + 1 ≤ t.pc.spare) : Polled L (es ++ [e]) t := by
  have hsl : sleepsMs (es ++ [e]) = sleepsMs es := by
    rw [sleepsMs_append, hsleep, List.append_nil]
  obtain ⟨-, h2, h3, h4, h5, h6⟩ := h
  rw [hasked] at h2 h3
  refine ⟨.inr hpoint, ?_, ?_, ?_, ?_, ?_⟩
  · rw [hsl, hasked', hlimit]
    exact h2
  · rw [hsl, hasked', hlimit]
    exact h3
  · intro hpc hmem
    rcases List.mem_append.mp hmem with hmem | hmem
    · exact h4 (hstill hpc) hmem
    · exact hgoing hpc (List.mem_singleton.mp hmem).symm
  · intro hpc
    rw [hlimit]
    rcases hfinished hpc with hf | hf | rfl
    · exact (h5 hf).imp_right fun hmem => List.mem_append_left _ hmem
    · exact .inl hf
    · exact .inr (List.mem_append_right _ List.mem_cons_self)
  · rw [hsl, List.length_append]
    show es.length + 1 ≤ _
    omega

theorem Polled.round (h : Polled L es s) (hpc : s.pc = .beforeLoop) {n : Nat}
    (hn : n = s.timeLimitMs / 2 + 1) (hle : n ≤ s.timeLimitMs) : Polled L (es ++ [.tau])
      { s with timeLimitMs := s.timeLimitMs - n, pc := .beforeSleep n } := by
  obtain ⟨-, h2, h3, h4, -, h6⟩ := h
  rw [hpc] at h2 h3 h4 h6
  have hsl : sleepsMs (es ++ [.tau]) = sleepsMs es := by
    rw [sleepsMs_append]
    exact List.append_nil _
  refine ⟨.inr (.inl rfl), ?_, ?_, ?_, nofun, ?_⟩
  · rw [hsl]
    simp only [SystemPc.asked, List.sum_append, List.sum_cons, List.sum_nil] at h2 ⊢
    omega
  · rw [hsl]
    have hhalf : 2 * (s.timeLimitMs - n + 1) ≤ s.timeLimitMs + 1 := by
      rw [hn]
      exact (halve (by omega)).2
    calc 2 ^ (sleepsMs es ++ [n]).length * (s.timeLimitMs - n + 1)
        = 2 ^ (sleepsMs es).length * (2 * (s.timeLimitMs - n + 1)) := by
          rw [List.length_append, List.length_singleton, pow_succ, mul_assoc]
      _ ≤ 2 ^ (sleepsMs es).length * (s.timeLimitMs + 1) := Nat.mul_le_mul_left _ hhalf
      _ ≤ L + 1 := by
          rw [show sleepsMs es ++ SystemPc.asked .beforeLoop = sleepsMs es from
            List.append_nil _] at h3
          exact h3
  · intro _ hmem
    rcases List.mem_append.mp hmem with hmem | hmem
    · exact h4 rfl hmem
    · cases List.mem_singleton.mp hmem
  · rw [hsl, List.length_append]
    exact Nat.succ_le_succ h6

theorem Polled.requested (h : Polled L es s) {n : Nat} (hpc : s.pc = .beforeSleep n) :
    Polled L (es ++ [.sleepMs n]) (s.goto .beforePoll) := by
  obtain ⟨-, h2, h3, h4, -, h6⟩ := h
  rw [hpc] at h2 h3 h4 h6
  have hsl : sleepsMs (es ++ [.sleepMs n]) = sleepsMs es ++ [n] := sleepsMs_append _ _
  refine ⟨.inr (.inl rfl), ?_, ?_, ?_, nofun, ?_⟩
  · rw [hsl]
    show (sleepsMs es ++ [n] ++ []).sum + _ = L
    rw [List.append_nil]
    exact h2
  · rw [hsl]
    show 2 ^ (sleepsMs es ++ [n] ++ []).length * _ ≤ L + 1
    rw [List.append_nil]
    exact h3
  · intro _ hmem
    rcases List.mem_append.mp hmem with hmem | hmem
    · exact h4 rfl hmem
    · cases List.mem_singleton.mp hmem
  · rw [hsl, List.length_append, List.length_append]
    change es.length ≤ 3 * (sleepsMs es).length + 2 at h6
    show es.length + 1 ≤ 3 * ((sleepsMs es).length + 1) + 0
    omega

theorem Polled.point_of_tau (h : Polled L es s) (hs : s.step A .tau = some t) :
    s.pc = .beforeLoop := by
  have hpoint := h.point
  cases RealTimeSystem.step_moves (RealTimeSystem.inside_of_step hs rfl) hs
  case timeUp hpc => exact hpc
  case wait hpc => exact hpc
  all_goals simp_all [SystemPc.inRounds, SystemPc.afterLoop]

/-- **One step of the call.** -/
theorem Polled.step (h : Polled L es s) (hL : L < 2^A.w32) (hin : NotReturned s e)
    (hs : s.step A e = some t) : Polled L (es ++ [e]) t := by
  have hidle : ∀ r, s.pc ≠ .idle r := SystemPc.ne_idle hin
  by_cases hloop : s.pc = .beforeLoop
  · obtain ⟨rfl, hround⟩ := RealTimeSystem.step_beforeLoop hloop (lt_of_le_of_lt h.limit_le hL) hs
    rcases hround with ⟨h0, rfl⟩ | ⟨n, hn, hle, rfl⟩
    · exact h.quiet rfl rfl (by rw [hloop]; rfl) rfl (.inr rfl) nofun nofun
        (fun _ => .inr (.inl h0)) (by rw [hloop]; exact le_rfl)
    · exact h.round hloop hn hle
  · have hpoint := h.point
    cases RealTimeSystem.step_moves hidle hs
    case timeUp hpc => exact absurd hpc hloop
    case wait hpc => exact absurd hpc hloop
    case sendFirst an hpc =>
      exact h.quiet rfl rfl (by rw [hpc]; rfl) rfl (.inl rfl) nofun (fun _ => by rw [hpc]; rfl)
        nofun (by rw [hpc]; exact le_rfl)
    case waited n hpc => exact h.requested hpc
    case polled b hpc =>
      cases b with
      | true =>
        exact h.quiet rfl rfl (by rw [hpc]; rfl) rfl (.inr rfl) nofun nofun
          (fun _ => .inr (.inr rfl)) (by rw [hpc]; exact Nat.le_succ 1)
      | false =>
        exact h.quiet rfl rfl (by rw [hpc]; rfl) rfl (.inl rfl) nofun (fun _ => by rw [hpc]; rfl)
          nofun (by rw [hpc]; exact le_rfl)
    case inTime hpc =>
      exact h.quiet rfl rfl (by rw [hpc]; rfl) rfl (.inr rfl) nofun nofun
        (fun _ => .inl (by rw [hpc]; rfl)) (by rw [hpc]; exact Nat.le_succ 3)
    case tooLate hpc =>
      exact h.quiet rfl rfl (by rw [hpc]; rfl) rfl (.inr rfl) nofun nofun
        (fun _ => .inl (by rw [hpc]; rfl)) (by rw [hpc]; exact le_rfl)
    case giveUp hpc =>
      exact h.quiet rfl rfl (by rw [hpc]; rfl) rfl (.inr rfl) nofun nofun
        (fun _ => .inl (by rw [hpc]; rfl)) (by rw [hpc]; exact le_rfl)
    case ticked hpc | late hpc =>
      rcases hpc with hpc | hpc <;> simp [SystemPc.inRounds, SystemPc.afterLoop, hpc] at hpoint
    all_goals simp_all [SystemPc.inRounds, SystemPc.afterLoop]

theorem polled_of_runs (hL : L < 2^A.w32) (hu : u.pc = .beforeSend) (hlimit : u.timeLimitMs = L)
    (hr : (system A).Runs NotReturned u es v) : Polled L es v := by
  refine hr.follows (fun l w => Polled L l w) ?_ ?_
  · refine ⟨.inl hu, ?_, ?_, ?_, ?_, ?_⟩
    · rw [hu, hlimit]
      exact Nat.zero_add L
    · rw [hu, hlimit]
      exact (Nat.one_mul _).le
    · exact fun _ => List.not_mem_nil
    · rw [hu]
      nofun
    · exact Nat.zero_le _
  · intro l w e w' hw hin hs
    exact hw.step hL hin hs

theorem Polled.goes_on (h : Polled L es s) (hin : s.pc.isIdle = false) (b : Bool) :
    ∃ e t, (system A).step s e = some t ∧ ∀ b', e = .isSendDone b' → b' = b := by
  have hb : ∀ b', SystemEvent.isSendDone b = .isSendDone b' → b' = b := by
    intro b' hb'
    exact (SystemEvent.isSendDone.inj hb').symm
  have hpoint := h.point
  have move : ∀ {pc e t}, s.pc = pc → (s.goto pc).step A e = some t →
      (system A).step s e = some t := by
    rintro _ e t rfl hs
    exact hs
  cases hpc : s.pc with
  | beforeSend => exact ⟨.send s.listOfData none, _, move hpc (if_pos rfl), nofun⟩
  | beforeLoop =>
    by_cases h0 : s.timeLimitMs = 0
    · exact ⟨.tau, _, move hpc (if_pos h0), nofun⟩
    · exact ⟨.tau, _, move hpc (if_neg h0), nofun⟩
  | beforeSleep n => exact ⟨.sleepMs n, _, move hpc (if_pos rfl), nofun⟩
  | beforePoll => exact ⟨.isSendDone b, _, move hpc rfl, hb⟩
  | beforeTest => exact ⟨.isSendDone b, _, move hpc rfl, hb⟩
  | beforeEnd => exact ⟨.endSender, _, move hpc rfl, nofun⟩
  | idle r =>
    rw [hpc] at hin
    cases hin
  | _ => simp [hpc, SystemPc.inRounds, SystemPc.afterLoop] at hpoint

theorem Polled.sleeps_le (h : Polled L es s) : (sleepsMs es).length ≤ Nat.log2 L + 1 := by
  have hk : 2 ^ (sleepsMs es).length ≤ L + 1 := by
    calc 2 ^ (sleepsMs es).length ≤ 2 ^ (sleepsMs es ++ s.pc.asked).length := by
          apply Nat.pow_le_pow_right (by decide)
          rw [List.length_append]
          exact Nat.le_add_right _ _
      _ ≤ 2 ^ (sleepsMs es ++ s.pc.asked).length * (s.timeLimitMs + 1) :=
          Nat.le_mul_of_pos_right _ (Nat.succ_pos _)
      _ ≤ L + 1 := h.halved
  cases hn : (sleepsMs es).length with
  | zero => exact Nat.zero_le _
  | succ k =>
    rw [hn, pow_succ] at hk
    have hpos : 1 ≤ 2 ^ k := Nat.one_le_two_pow
    apply Nat.succ_le_succ
    apply (Nat.le_log2 (by omega)).mpr
    omega

theorem RealTimeSystem.step_sleepMs {n : Nat} (hs : s.step A (.sleepMs n) = some t) :
    s.pc = .beforeSleep n := by
  cases RealTimeSystem.step_moves (RealTimeSystem.inside_of_step hs rfl) hs
  case waited hpc => exact hpc

/-- **The polling loop of `send_before_run`.**  Whatever `is_send_done` answers: no subtraction from
the limit `L` underflows; the sleeps requested add up to at most `L`, and to `L` when no answer was
true; there are at most `log2 L + 1` of them, and none after an answer that was true; and the call
ends after finitely many steps. -/
theorem polling_law {l : DataPacketsList} (hL : L < 2^A.w32) (hi : s.initialized = true)
    (hs : (system A).step s (.sendBeforeRun l L) = some u)
    (hr : (system A).Runs NotReturned u es v) :
    (∀ es₁ es₂ x y, es = es₁ ++ .tau :: es₂ → (system A).run u es₁ = some x →
        (system A).step x .tau = some y → x.timeLimitMs ≠ 0 →
        ∃ n, y.pc = .beforeSleep n ∧ n = x.timeLimitMs / 2 + 1 ∧
          y.timeLimitMs + n = x.timeLimitMs) ∧
      ((sleepsMs es).sum ≤ L ∧
        (v.pc.afterLoop = true → .isSendDone true ∉ es → (sleepsMs es).sum = L)) ∧
      (sleepsMs es).length ≤ Nat.log2 L + 1 ∧
      (∀ es₁ es₂, es = es₁ ++ .isSendDone true :: es₂ → sleepsMs es₂ = []) ∧
      es.length ≤ 3 * (Nat.log2 L + 1) + 4 ∧
      (v.pc.isIdle = true ∨ ∀ b, ∃ e t, (system A).step v e = some t ∧
        ∀ b', e = .isSendDone b' → b' = b) := by
  obtain ⟨-, hu⟩ := RealTimeSystem.step_sendBeforeRun hi hs
  have hpc : u.pc = .beforeSend := congrArg RealTimeSystem.pc hu
  have hlimit : u.timeLimitMs = L := congrArg RealTimeSystem.timeLimitMs hu
  have hv := polled_of_runs hL hpc hlimit hr
  have hbefore : ∀ es₁ e es₂, es = es₁ ++ e :: es₂ →
      ∃ x y, (system A).run u es₁ = some x ∧ (system A).step x e = some y ∧ Polled L es₁ x := by
    intro es₁ e es₂ hes
    rw [hes] at hr
    obtain ⟨x, hx, -⟩ := hr.split
    obtain ⟨x', y, hx', hy, -⟩ := Machine.run_cut hr.run_eq
    obtain rfl : x = x' := Option.some.inj (hx.run_eq.symm.trans hx')
    exact ⟨x, y, hx', hy, polled_of_runs hL hpc hlimit hx⟩
  have hsum := hv.spent
  rw [List.sum_append] at hsum
  refine ⟨?_, ⟨by omega, ?_⟩, hv.sleeps_le, ?_, ?_, ?_⟩
  · intro es₁ es₂ x y hes hx hy h0
    obtain ⟨x', -, hx', -, hpolled⟩ := hbefore es₁ _ es₂ hes
    obtain rfl : x = x' := Option.some.inj (hx.symm.trans hx')
    obtain ⟨-, ⟨h0', -⟩ | ⟨n, hn, hle, rfl⟩⟩ := RealTimeSystem.step_beforeLoop
      (hpolled.point_of_tau hy) (lt_of_le_of_lt hpolled.limit_le hL) hy
    · exact absurd h0' h0
    · exact ⟨n, rfl, hn, Nat.sub_add_cancel hle⟩
  · intro hafter hno
    have h0 := (hv.finished hafter).resolve_right hno
    rw [SystemPc.asked_afterLoop hafter, h0] at hsum
    exact hsum
  · intro es₁ es₂ hes
    apply List.eq_nil_iff_forall_not_mem.mpr
    intro n hn
    obtain ⟨l₁, l₂, rfl⟩ := List.append_of_mem (mem_sleepsMs hn)
    obtain ⟨x, y, -, hy, hpolled⟩ := hbefore (es₁ ++ .isSendDone true :: l₁) (.sleepMs n) l₂
      (by rw [hes, List.append_assoc]; rfl)
    have hx := RealTimeSystem.step_sleepMs hy
    refine hpolled.going (by rw [hx]; rfl) ?_
    exact List.mem_append_right _ List.mem_cons_self
  · have hsteps := hv.steps
    have hk := hv.sleeps_le
    have hspare := SystemPc.spare_le v.pc
    omega
  · cases hin : v.pc.isIdle with
    | true => exact .inl rfl
    | false => exact .inr (hv.goes_on hin)

end
/-- a limit of 5 ms and a sender that is never done -/
def pollingInVain : List SystemEvent :=
  [.send [] none, .tau, .sleepMs 3, .isSendDone false, .tau, .sleepMs 2, .isSendDone false, .tau,
    .isSendDone false, .endSender]

instance (s : RealTimeSystem) (e : SystemEvent) : Decidable (NotReturned s e) :=
  inferInstanceAs (Decidable (_ = _))

theorem polling_law_in_vain :
    ∃ u v, (system FastInts.lp64).step { initialized := true } (.sendBeforeRun [] 5) = some u ∧
      (system FastInts.lp64).Runs NotReturned u pollingInVain v ∧
      (sleepsMs pollingInVain).sum = 5 ∧ (sleepsMs pollingInVain).length ≤ Nat.log2 5 + 1 := by
  have hrun : ((system FastInts.lp64).step { initialized := true } (.sendBeforeRun [] 5)).bind
      (fun u => (((system FastInts.lp64).restrict NotReturned).run u pollingInVain).map fun v =>
        v.pc.afterLoop) = some true := by decide
  obtain ⟨u, hu, hrun⟩ := Option.bind_eq_some_iff.mp hrun
  obtain ⟨v, hv, hafter⟩ := Option.map_eq_some_iff.mp hrun
  have hruns := Machine.Runs.of_restrict hv
  obtain ⟨-, ⟨-, hsum⟩, hlog, -⟩ := polling_law (by decide) rfl hu hruns
  exact ⟨u, v, hu, hruns, hsum hafter (by decide), hlog⟩

end RealTimeTransfer

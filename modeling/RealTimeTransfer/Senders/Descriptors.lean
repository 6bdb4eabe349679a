import RealTimeTransfer.Senders.Renewal

/-!
# The descriptor of a worker

A worker takes `sock_fd` from the shared data at each call; the main thread owns the socket and
closes it.  Over all lifetimes of an object the worker passes the kernel the client's socket while
it is open, and nothing else: not a descriptor that `end_sender` has closed, nor one of another
lifetime.

* `Worker.onSocket`   the calls that are given `sock_fd`;
* `Connected`         the client's socket from `accept` to the end of the sender;
* `descriptor_open`   every such call is made with it.
-/

namespace RealTimeTransfer
open Machines Words Sync

/-- the worker passes `sock_fd` to the kernel: all calls but that for the affinity -/
def Worker.onSocket (w : Worker) : WorkerEvent → Bool
  | .call _ => decide (w.pc ≠ .setAffinity)
  | .sent _ | .recv _ => true
  | .tau | .wake => false

/-- the points of `initialize` behind `accept` and before the worker is created -/
def InitPc.accepted : InitPc → Bool
  | .closeServer | .setFd | .thread => true
  | _ => false

/-- a worker has been created and `end_sender` has not returned since -/
def Lifetimes.Running (s : Lifetimes) : Prop := s.latest ≠ none ∧ s.ended = false

structure Connected (s : Lifetimes) : Prop where
  server : s.init = some .client → s.main.sockets.serverSockFd ∈ s.main.sockets.ledger.opened
  apart : s.init = some .closeServer →
    s.main.sockets.serverSockFd ≠ s.main.sockets.clientSockFd
  client : (∃ i, s.init = some i ∧ i.accepted = true) ∨ s.Running →
    s.main.sockets.clientSockFd ∈ s.main.sockets.ledger.opened
  fd : s.init = some .thread ∨ s.Running → s.data.sockFd = s.main.sockets.clientSockFd

/-! ## The steps -/

theorem bindLoop_opened {zc : Bool} {s t : Sockets} {as : List AddrAnswer}
    (h : s.bindLoop zc as = some (t, .ok true)) : t.serverSockFd ∈ t.ledger.opened := by
  induction as generalizing s with
  | nil => cases h
  | cons a as ih =>
    unfold Sockets.bindLoop at h
    by_cases ha : a.socket = -1
    · rw [if_pos ha] at h
      exact ih h
    · rw [if_neg ha] at h
      obtain ⟨v, hv, h⟩ := Option.bind_eq_some_iff.mp h
      obtain ⟨-, -, rfl⟩ := Sockets.openServer_eq hv
      split at h
      · cases h
      · split at h
        · cases h
        · split at h
          · exact ih h
          · cases h
            exact List.mem_append_right _ (List.mem_singleton_self _)

theorem createServer_opened {zc : Bool} {s t : Sockets} {addrs : AddrInfo} {listen : Bool}
    (h : s.createServer zc addrs listen = some (t, .ok ())) : t.serverSockFd ∈ t.ledger.opened := by
  unfold Sockets.createServer at h
  cases addrs with
  | error msg => cases h
  | ok as =>
    obtain ⟨⟨v, r⟩, hv, he⟩ := Option.map_eq_some_iff.mp h
    obtain ⟨rfl, hr⟩ := Prod.mk.inj he
    cases r with
    | error msg => cases hr
    | ok b =>
      cases b with
      | false => cases hr
      | true => exact bindLoop_opened hv

theorem getClient_opened {s t : Sockets} {fd : Int} (hs : s.serverSockFd ∈ s.ledger.opened)
    (h : s.getClient fd = some (t, .ok ())) :
    t.clientSockFd ∈ t.ledger.opened ∧ t.serverSockFd ≠ t.clientSockFd := by
  unfold Sockets.getClient at h
  by_cases hfd : fd = -1
  · rw [if_pos hfd] at h
    cases h
  · rw [if_neg hfd] at h
    obtain ⟨v, hv, he⟩ := Option.map_eq_some_iff.mp h
    obtain ⟨-, hn, rfl⟩ := Sockets.openClient_eq hv
    cases he
    exact ⟨List.mem_append_right _ (List.mem_singleton_self _),
      fun hf : s.serverSockFd = fd => hn (hf ▸ hs)⟩

theorem dropServer_opened {s : Sockets} (ha : s.serverSockFd ≠ s.clientSockFd)
    (hc : s.clientSockFd ∈ s.ledger.opened) :
    s.dropServer.clientSockFd ∈ s.dropServer.ledger.opened := by
  show s.clientSockFd ∈ (s.ledger.close s.serverSockFd).opened
  unfold Ledger.close
  split
  · exact (List.mem_erase_of_ne ha.symm).mpr hc
  · exact hc

theorem Advance.sockFd_eq {d d' : SenderWorkerData} {pc pc' : SenderPc} (h : Advance d pc d' pc') :
    d'.sockFd = d.sockFd := by
  cases h <;> rfl

theorem Handshake.sockFd_eq {k : Nat} {d d' : SenderWorkerData} {ph ph' : Phase}
    (h : Handshake k d ph d' ph') : d'.sockFd = d.sockFd := by
  cases h <;> rfl

theorem Sender.step_sockets {zc : Bool} {d d' : SenderWorkerData} {m m' : Sender}
    (hs : m.step zc d = some (d', m')) (hpc : m.pc ≠ .endClose) : m'.sockets = m.sockets := by
  unfold Sender.step at hs
  split at hs
  case h_1 => cases hs
  case h_2 | h_4 | h_6 =>
    cases hs
    split <;> rfl
  case h_7 | h_13 =>
    obtain ⟨x, -, he⟩ := Option.map_eq_some_iff.mp hs
    cases he
    rfl
  case h_17 hc => exact absurd hc hpc
  all_goals
    cases hs
    rfl

section
variable {zc : Bool} {A : FastInts} {s t : Lifetimes} {e : LifetimesEvent} {i : InitPc}

theorem Connected.same (h : Connected s) (hs : t.main.sockets = s.main.sockets)
    (hd : t.data.sockFd = s.data.sockFd) (hr : t.Running → s.Running)
    (hi : ∀ i, t.init = some i → i ≠ .client ∧ i.accepted = false) : Connected t := by
  refine ⟨fun hn => absurd rfl (hi _ hn).1, fun hn => absurd (hi _ hn).2 nofun, ?_, ?_⟩
  · rintro (⟨i, hn, ha⟩ | hn)
    · exact absurd (ha.symm.trans (hi i hn).2) nofun
    · rw [hs]
      exact h.client (.inr (hr hn))
  · rintro (hn | hn)
    · exact absurd (hi _ hn).2 nofun
    · rw [hs, hd]
      exact h.fd (.inr (hr hn))

theorem Settled.not_running (h : Settled s) (hi : s.init = some i)
    (hst : i.starting = true) : ¬ s.Running :=
  fun hr => absurd ((h.starting i hi hst).symm.trans hr.2) nofun

theorem Connected.of_not_running (hn : ¬ t.Running)
    (hi : ∀ i, t.init = some i → i ≠ .client ∧ i.accepted = false) : Connected t := by
  refine ⟨fun hj => absurd rfl (hi _ hj).1, fun hj => absurd (hi _ hj).2 nofun, ?_, ?_⟩
  · rintro (⟨i, hj, ha⟩ | hr)
    · exact absurd (ha.symm.trans (hi i hj).2) nofun
    · exact absurd hr hn
  · rintro (hj | hr)
    · exact absurd (hi _ hj).2 nofun
    · exact absurd hr hn

theorem connected_start (h : Heap) : Connected (Lifetimes.construct zc h) :=
  Connected.of_not_running (fun hr => absurd rfl hr.1) nofun

theorem Connected.stepInit (h : Connected s) (hst : Settled s) (hi : s.init = some i)
    (hs : s.stepInit i = some t) : Connected t := by
  cases i with
  | ending =>
    obtain ⟨-, rfl⟩ := Option.ite_some_none_eq_some.mp hs
    refine h.same rfl rfl id fun j hj => ?_
    cases hj
    exact ⟨nofun, rfl⟩
  | reset n =>
    obtain ⟨f, -, rfl⟩ := Option.map_eq_some_iff.mp hs
    refine Connected.of_not_running (hst.not_running hi rfl) fun j hj => ?_
    change some (if n + 1 < resets.length then InitPc.reset (n + 1) else .server) = some j at hj
    cases hj
    split <;> exact ⟨nofun, rfl⟩
  | closeServer =>
    cases hs
    have hn : ¬ s.Running := hst.not_running hi rfl
    refine ⟨nofun, nofun, fun _ => ?_, ?_⟩
    · exact dropServer_opened (h.apart hi) (h.client (.inl ⟨_, hi, rfl⟩))
    · rintro (hj | hr)
      · cases hj
      · exact absurd hr hn
  | setFd =>
    cases hs
    exact ⟨nofun, nofun, fun _ => h.client (.inl ⟨_, hi, rfl⟩), fun _ => rfl⟩
  | waitStart =>
    cases hs
    refine h.same rfl rfl id fun j hj => ?_
    change some (if s.data.threadInitialized then InitPc.mark else .waitStart) = some j at hj
    cases hj
    split <;> exact ⟨nofun, rfl⟩
  | mark =>
    cases hs
    exact h.same rfl rfl id nofun
  | server => cases hs
  | client => cases hs
  | thread => cases hs

/-- **The client's socket is open as long as there is a worker for it.** -/
theorem Connected.step (h : Connected s) (hst : Settled s) (hs : s.step zc A e = some t) :
    Connected t := by
  cases e with
  | callInitialize =>
    obtain ⟨-, hs⟩ := Option.ite_none_right_eq_some.mp hs
    obtain ⟨m, hm, rfl⟩ := Option.map_eq_some_iff.mp hs
    obtain ⟨-, rfl⟩ := Sender.callEndSender_eq hm
    refine h.same rfl rfl id fun i hi => ?_
    cases hi
    exact ⟨nofun, rfl⟩
  | callSend p =>
    obtain ⟨hi, hs⟩ := Option.ite_none_right_eq_some.mp hs
    obtain ⟨m, hm, rfl⟩ := Option.map_eq_some_iff.mp hs
    obtain ⟨-, rfl⟩ := Sender.callSend_eq hm
    exact h.same rfl rfl id fun i hi' => absurd (hi.symm.trans hi') nofun
  | callEndSender =>
    obtain ⟨hi, hs⟩ := Option.ite_none_right_eq_some.mp hs
    obtain ⟨m, hm, rfl⟩ := Option.map_eq_some_iff.mp hs
    obtain ⟨-, rfl⟩ := Sender.callEndSender_eq hm
    exact h.same rfl rfl id fun i hi' => absurd (hi.symm.trans hi') nofun
  | main =>
    obtain ⟨⟨d, m⟩, hm, rfl⟩ := Option.map_eq_some_iff.mp hs
    have adv := Sender.step_advance hm
    have hending : ∀ i, s.init = some i → i ≠ .client ∧ i.accepted = false := by
      intro i hi
      by_cases hne : i = .ending
      · rw [hne]
        exact ⟨nofun, rfl⟩
      · exact absurd ((hst.ready i hi hne).symm.trans adv.not_ready) nofun
    by_cases hpc : s.main.pc = .endClose
    · have hn : ¬ Lifetimes.Running { s with
          data := d, main := m, ended := s.ended || decide (s.main.pc = .endClose) } := by
        rintro ⟨-, he⟩
        change (s.ended || decide (s.main.pc = .endClose)) = false at he
        rw [hpc] at he
        simp at he
      exact Connected.of_not_running hn hending
    · refine h.same (Sender.step_sockets hm hpc) adv.sockFd_eq ?_ hending
      rintro ⟨hl, he⟩
      exact ⟨hl, (Bool.or_eq_false_iff.mp he).1⟩
  | init =>
    obtain ⟨i, hi, hs⟩ := Option.bind_eq_some_iff.mp hs
    exact h.stepInit hst hi hs
  | server addrs listen =>
    obtain ⟨hi, hs⟩ := Option.ite_none_right_eq_some.mp hs
    obtain ⟨⟨so, r⟩, hso, rfl⟩ := Option.map_eq_some_iff.mp hs
    have hn : ¬ s.Running := hst.not_running hi rfl
    cases r with
    | error msg => exact Connected.of_not_running hn nofun
    | ok _ =>
      refine ⟨fun _ => createServer_opened hso, nofun, ?_, ?_⟩
      · rintro (⟨i, hj, ha⟩ | hr)
        · cases hj
          cases ha
        · exact absurd hr hn
      · rintro (hj | hr)
        · cases hj
        · exact absurd hr hn
  | client fd =>
    obtain ⟨hi, hs⟩ := Option.ite_none_right_eq_some.mp hs
    obtain ⟨⟨so, r⟩, hso, rfl⟩ := Option.map_eq_some_iff.mp hs
    have hn : ¬ s.Running := hst.not_running hi rfl
    cases r with
    | error msg => exact Connected.of_not_running hn nofun
    | ok _ =>
      obtain ⟨hc, ha⟩ := getClient_opened (h.server hi) hso
      refine ⟨nofun, fun _ => ha, fun _ => hc, ?_⟩
      rintro (hj | hr)
      · cases hj
      · exact absurd hr hn
  | thread a =>
    obtain ⟨hi, hs⟩ := Option.ite_none_right_eq_some.mp hs
    have hn : ¬ s.Running := hst.not_running hi rfl
    split at hs
    · cases hs
      exact h.same rfl rfl id nofun
    · cases hs
      exact ⟨nofun, nofun, fun _ => h.client (.inl ⟨_, hi, rfl⟩), fun _ => h.fd (.inl hi)⟩
  | earlier k x =>
    obtain ⟨w, hw, hs⟩ := Option.bind_eq_some_iff.mp hs
    obtain ⟨⟨d, w'⟩, hw', rfl⟩ := Option.map_eq_some_iff.mp hs
    obtain rfl := Worker.step_over (hst.earlier w (List.mem_of_getElem? hw)) hw'
    exact ⟨h.server, h.apart, h.client, h.fd⟩
  | latest x =>
    obtain ⟨w, hw, hs⟩ := Option.bind_eq_some_iff.mp hs
    obtain ⟨⟨d, w'⟩, hw', rfl⟩ := Option.map_eq_some_iff.mp hs
    have hfd := (Worker.step_handshake (hst.sane w hw) hw').2.sockFd_eq
    have hr : Lifetimes.Running { s with data := d, latest := some w' } → s.Running :=
      fun hr => ⟨by rw [hw]; nofun, hr.2⟩
    exact ⟨h.server, h.apart, fun hc => h.client (hc.imp_right hr),
      fun hc => hfd.trans (h.fd (hc.imp_right hr))⟩
  | write h' =>
    obtain ⟨-, rfl⟩ := Option.ite_some_none_eq_some.mp hs
    exact ⟨h.server, h.apart, h.client, h.fd⟩

theorem Worker.not_onSocket_of_over {k : Nat} {h : Heap} {d : SenderWorkerData} {w : Worker}
    {x : WorkerEvent} {r : SenderWorkerData × Worker} (ho : w.phase = .over)
    (hs : w.step zc A k h d x = some r) : w.onSocket x = false := by
  unfold Worker.phase at ho
  unfold Worker.step at hs
  cases hpc : w.pc <;> rw [hpc] at ho hs <;> cases ho
  · cases x <;> first | rfl | cases hs
  · cases hs

/-- **A worker uses the open socket of its own client.**  Take any calls, lifetimes and
interleavings in which `end_sender` does not return between the two writes of an exiting worker.  A
worker of an earlier lifetime makes no call on a socket; and whenever the latest one does (in its
set-up, to send, to wait for a notification), `sock_fd` is the client's socket of this lifetime, and
it is open. -/
theorem descriptor_open {h : Heap} {es : List LifetimesEvent}
    (hr : (lifetimes zc A).Runs ReturnOk (Lifetimes.construct zc h) es s) :
    (∀ k (w : Worker) x r, s.earlier[k]? = some w → w.step zc A k s.heap s.data x = some r →
        w.onSocket x = false) ∧
      ∀ (w : Worker) x r, s.latest = some w →
        w.step zc A s.earlier.length s.heap s.data x = some r →
        w.onSocket x = true → s.ended = false ∧ s.data.sockFd = s.main.sockets.clientSockFd ∧
          s.data.sockFd ∈ s.main.sockets.ledger.opened := by
  obtain ⟨hst, hc⟩ : Settled s ∧ Connected s :=
    hr.keeps (fun v => Settled v ∧ Connected v) ⟨settled_start h, connected_start h⟩
      fun _ _ _ hv ho hs => ⟨hv.1.step ho hs, hv.2.step hv.1 hs⟩
  refine ⟨fun k w x r hw hs => ?_, fun w x r hw hs hon => ?_⟩
  · exact Worker.not_onSocket_of_over (hst.earlier w (List.mem_of_getElem? hw)).2 hs
  · have hrun : s.Running := by
      refine ⟨by rw [hw]; nofun, ?_⟩
      by_contra he
      have ho := hst.ended (Bool.not_eq_false _ ▸ he) w hw
      exact absurd (hon.symm.trans (Worker.not_onSocket_of_over ho hs)) nofun
    have hfd := hc.fd (.inr hrun)
    exact ⟨hrun.2, hfd, hfd ▸ hc.client (.inr hrun)⟩

/-- the worker of the second lifetime sets the timeout of the second client's socket -/
theorem descriptor_open_second :
    ∃ s, (lifetimes false FastInts.lp64).run (Lifetimes.construct false noMemory)
        (initialized ++ failedSetUp ++ secondWrite .latest ++ endSender ++ initialized ++
          [.latest (.call true)]) = some s ∧
      s.earlier.length = 1 ∧ s.data.sockFd ∈ s.main.sockets.ledger.opened := by
  have hrun : (((lifetimes false FastInts.lp64).restrict ReturnOk).run
      (Lifetimes.construct false noMemory)
      (initialized ++ failedSetUp ++ secondWrite .latest ++ endSender ++ initialized ++
        [.latest (.call true)])).map (fun s => (s.earlier.length, s.latest.map Worker.pc))
      = some (1, some .setTimeout) := by decide +kernel
  obtain ⟨s, hs, he⟩ := Option.map_eq_some_iff.mp hrun
  obtain ⟨hlen, hlatest⟩ := Prod.mk.inj he
  obtain ⟨w, hw, hpc⟩ := Option.map_eq_some_iff.mp hlatest
  have hr := Machine.Runs.of_restrict hs
  have hstep : w.step false FastInts.lp64 s.earlier.length s.heap s.data (.call true)
      = some (s.data, w.orEnd true .setSendBuffer .cantSocketTimeout) := by
    unfold Worker.step
    rw [hpc]
  have hon : w.onSocket (.call true) = true := by
    unfold Worker.onSocket
    rw [hpc]
    rfl
  exact ⟨s, hr.run_eq, hlen, ((descriptor_open hr).2 w (.call true) _ hw hstep hon).2.2⟩

end
end RealTimeTransfer

import RealTimeTransfer.Lib.Machine
import RealTimeTransfer.Utils.Error
import Mathlib.Data.List.Basic

/-!
# The sockets of a sender

`create_server`, `get_client`, `initialize` and `end_sender` as far as they open and close
descriptors.  The answers of the kernel come as arguments.  `Ledger` is what an observer of the
process writes down of one object: the descriptors it opened and has not closed since (`opened`)
and its calls of `close` on any other (`stray`).

* `Sockets.createServer`   the loop over the addresses, with its early exits;
* `Sockets.closeSockets`   the last part of `end_sender`;
* `Sockets.initialize`     a whole call, the thread creation included;
* `Exhausts`               no address could be bound, and the last one failed in `bind`.

`zc` selects the zero-copy sender, which sets one more option on the server socket.
-/

namespace RealTimeTransfer
open Machines

structure Ledger where
  opened : List Int := []
  stray : List Int := []
  deriving DecidableEq, Repr

namespace Ledger

/-- a descriptor returned by `socket` or `accept`: one that is not open -/
def open' (L : Ledger) (fd : Int) : Option Ledger :=
  if 0 ≤ fd ∧ fd ∉ L.opened then some { L with opened := L.opened ++ [fd] } else none

def close (L : Ledger) (fd : Int) : Ledger :=
  if fd ∈ L.opened then { L with opened := L.opened.erase fd }
  else { L with stray := L.stray ++ [fd] }

theorem open_eq {L L' : Ledger} {fd : Int} (h : L.open' fd = some L') :
    0 ≤ fd ∧ fd ∉ L.opened ∧ L' = { L with opened := L.opened ++ [fd] } := by
  unfold open' at h
  by_cases hc : 0 ≤ fd ∧ fd ∉ L.opened
  · rw [if_pos hc] at h
    exact ⟨hc.1, hc.2, (Option.some.inj h).symm⟩
  · rw [if_neg hc] at h
    cases h

theorem close_stray {L : Ledger} (fd : Int) (h : L.stray ≠ []) : (L.close fd).stray ≠ [] := by
  unfold close
  by_cases hc : fd ∈ L.opened
  · rw [if_pos hc]; exact h
  · rw [if_neg hc]
    exact fun hn => absurd (List.append_eq_nil_iff.mp hn).2 (by simp)

end Ledger

/-- the answers of the kernel for one address: `socket`, the options and `bind` -/
structure AddrAnswer where
  socket : Int
  reuseAddr : Bool
  zeroCopy : Bool
  bind : Bool
  deriving DecidableEq, Repr

/-- `getaddrinfo`: the text of its error, or the answers for the addresses in order -/
abbrev AddrInfo := Except String (List AddrAnswer)

/-- the codes returned by the five calls on the attributes and by `pthread_create` -/
structure ThreadAnswers where
  attr : List Int
  create : Int
  deriving DecidableEq, Repr

/-- the texts for the calls on the thread attributes, in their order -/
def attrMessages : List String :=
  ["init pthread attributes failed", "pthread setstacksize failed",
    "pthread setschedpolicy failed", "pthread setschedparam failed",
    "pthread setinheritsched failed"]

/-- the creation of the worker thread: the text of the first call that failed -/
def ThreadAnswers.error (a : ThreadAnswers) : Option String :=
  match (a.attr.zip attrMessages).find? fun c => c.1 ≠ 0 with
  | some c => some c.2
  | none =>
    if a.create ≠ 0 then some ("pthread_create() return code: " ++ toString a.create) else none

/-- the answers of the kernel to one call of `initialize` -/
structure InitAnswers where
  addrs : AddrInfo
  listen : Bool
  accept : Int
  thread : ThreadAnswers

/-- the two descriptors, where `-1` is none, and the observer's notes -/
structure Sockets where
  serverSockFd : Int := -1
  clientSockFd : Int := -1
  ledger : Ledger := {}
  deriving DecidableEq, Repr

namespace Sockets

def openServer (s : Sockets) (fd : Int) : Option Sockets :=
  (s.ledger.open' fd).map fun L => { s with serverSockFd := fd, ledger := L }

def openClient (s : Sockets) (fd : Int) : Option Sockets :=
  (s.ledger.open' fd).map fun L => { s with clientSockFd := fd, ledger := L }

/-- `close(server_sock_fd_)` -/
def closeServer (s : Sockets) : Sockets := { s with ledger := s.ledger.close s.serverSockFd }

/-- `close(client_sock_fd_)` -/
def closeClient (s : Sockets) : Sockets := { s with ledger := s.ledger.close s.clientSockFd }

/-- the loop of `create_server`: an early return with its text, or whether an address was bound -/
def bindLoop (zc : Bool) : Sockets → List AddrAnswer → Option (Sockets × Except String Bool)
  | s, [] => some (s, .ok false)
  | s, a :: as =>
    if a.socket = -1 then bindLoop zc { s with serverSockFd := -1 } as
    else
      (s.openServer a.socket).bind fun s =>
        if !a.reuseAddr then
          some (s, .error "error in setsockopt while setting SO_REUSEADDR flag")
        else if zc && !a.zeroCopy then
          some (s, .error "error in setsockopt while setting SO_ZEROCOPY flag")
        else if !a.bind then bindLoop zc s.closeServer as
        else some (s, .ok true)

/-- the part of `create_server` after the loop -/
def afterLoop (listen : Bool) : Except String Bool → Except String Unit
  | .error msg => .error msg
  | .ok false => .error "server: failed to bind"
  | .ok true => if listen then .ok () else .error "error in listen to the port"

def createServer (zc : Bool) (s : Sockets) (addrs : AddrInfo) (listen : Bool) :
    Option (Sockets × Except String Unit) :=
  match addrs with
  | .error msg => some (s, .error ("getaddrinfo: " ++ msg))
  | .ok as => (bindLoop zc s as).map fun r => (r.1, afterLoop listen r.2)

def getClient (s : Sockets) (fd : Int) : Option (Sockets × Except String Unit) :=
  if fd = -1 then some ({ s with clientSockFd := -1 }, .error "error in accepting the client")
  else (s.openClient fd).map fun s => (s, .ok ())

/-- the server closed and its field cleared -/
def dropServer (s : Sockets) : Sockets := { s.closeServer with serverSockFd := -1 }

def dropClient (s : Sockets) : Sockets := { s.closeClient with clientSockFd := -1 }

/-- the last part of `end_sender` -/
def closeSockets (s : Sockets) : Sockets :=
  let s := if s.serverSockFd ≠ -1 then s.dropServer else s
  if s.clientSockFd ≠ -1 then s.dropClient else s

/-- the part of `initialize` after `create_server` -/
def acceptAndStart (s : Sockets) (a : InitAnswers) : Option (Sockets × Except String Unit) :=
  (s.getClient a.accept).map fun r =>
    match r with
    | (s, .error msg) => (s, .error msg)
    | (s, .ok ()) =>
      match a.thread.error with
      | some msg => (s.dropServer, .error msg)
      | none => (s.dropServer, .ok ())

/-- `initialize` on the sockets -/
def initializeSockets (zc : Bool) (s : Sockets) (a : InitAnswers) :
    Option (Sockets × Except String Unit) :=
  (createServer zc s.closeSockets a.addrs a.listen).bind fun r =>
    match r with
    | (s, .error msg) => some (s, .error msg)
    | (s, .ok ()) => s.acceptAndStart a

end Sockets

/-! ## Sequences of calls -/

inductive SenderCall where
  | callInitialize (a : InitAnswers)
  | send
  | endSender

/-- a call as it acts on the sockets -/
def Sockets.call (zc : Bool) (s : Sockets) : SenderCall → Option Sockets
  | .callInitialize a => (s.initializeSockets zc a).map Prod.fst
  | .send => some s
  | .endSender => some s.closeSockets

/-- the calls of a `TCPSender` (`zc = false`) or of a `TCPSenderZC` -/
def senderCalls (zc : Bool) : Machine Sockets SenderCall := ⟨Sockets.call zc⟩

/-- the loop goes past the address: no socket, or a socket that `bind` refused -/
def AddrAnswer.passed (zc : Bool) (a : AddrAnswer) : Bool :=
  a.socket = -1 || (a.reuseAddr && (!zc || a.zeroCopy) && !a.bind)

/-- the list of addresses is exhausted, and `bind` failed on the last one -/
def Exhausts (zc : Bool) (as : List AddrAnswer) : Prop :=
  (∀ a ∈ as, a.passed zc = true) ∧ ∃ a, as.getLast? = some a ∧ a.socket ≠ -1

/-- a call of `initialize` that exhausts the addresses, the last one in `bind` -/
def SenderCall.Exhausts (zc : Bool) : SenderCall → Prop
  | .callInitialize { addrs := .ok as, .. } => RealTimeTransfer.Exhausts zc as
  | _ => False

/-! ## What the calls keep -/

namespace Sockets

/-- what stands between two calls that clean up as they should: nothing open, a server that waits
for its client, or a client -/
inductive Tidy : Sockets → Prop where
  | closed : Tidy {}
  | listening (fd : Int) : 0 ≤ fd → Tidy ⟨fd, -1, ⟨[fd], []⟩⟩
  | connected (fd : Int) : 0 ≤ fd → Tidy ⟨-1, fd, ⟨[fd], []⟩⟩

/-- the server field names a descriptor that has been closed -/
inductive Dangling : Sockets → Prop where
  | mk (fd : Int) : 0 ≤ fd → Dangling ⟨fd, -1, {}⟩

/-- each field is `-1` or an open descriptor -/
def FieldsOpen (s : Sockets) : Prop :=
  (s.serverSockFd = -1 ∨ s.serverSockFd ∈ s.ledger.opened) ∧
    (s.clientSockFd = -1 ∨ s.clientSockFd ∈ s.ledger.opened)

theorem Tidy.fieldsOpen {s : Sockets} (h : s.Tidy) : s.FieldsOpen := by
  cases h with
  | closed => exact ⟨.inl rfl, .inl rfl⟩
  | listening fd h0 => exact ⟨.inr List.mem_cons_self, .inl rfl⟩
  | connected fd h0 => exact ⟨.inl rfl, .inr List.mem_cons_self⟩

theorem ne_none_of_nonneg {fd : Int} (h : 0 ≤ fd) : fd ≠ -1 := by omega

theorem close_only (fd : Int) : (⟨[fd], []⟩ : Ledger).close fd = {} := by
  simp [Ledger.close]

theorem Tidy.closeSockets_eq {s : Sockets} (h : s.Tidy) : s.closeSockets = {} := by
  cases h with
  | closed => rfl
  | listening fd h0 =>
    simp [closeSockets, dropServer, closeServer, ne_none_of_nonneg h0, close_only]
  | connected fd h0 =>
    simp [closeSockets, dropClient, closeClient, ne_none_of_nonneg h0, close_only]

theorem Dangling.closeSockets_stray {s : Sockets} (h : s.Dangling) :
    s.closeSockets.ledger.stray ≠ [] := by
  obtain ⟨fd, h0⟩ := h
  simp [closeSockets, dropServer, closeServer, Ledger.close, ne_none_of_nonneg h0]

theorem closeSockets_stray {s : Sockets} (h : s.ledger.stray ≠ []) :
    s.closeSockets.ledger.stray ≠ [] := by
  have server : (if s.serverSockFd ≠ -1 then s.dropServer else s).ledger.stray ≠ [] := by
    by_cases hs : s.serverSockFd ≠ -1
    · rw [if_pos hs]; exact Ledger.close_stray _ h
    · rw [if_neg hs]; exact h
  unfold closeSockets
  generalize (if s.serverSockFd ≠ -1 then s.dropServer else s) = s' at server
  by_cases hc : s'.clientSockFd ≠ -1
  · rw [if_pos hc]; exact Ledger.close_stray _ server
  · rw [if_neg hc]; exact server

theorem openServer_eq {s t : Sockets} {fd : Int} (h : s.openServer fd = some t) :
    0 ≤ fd ∧ fd ∉ s.ledger.opened ∧
      t = { s with
        serverSockFd := fd, ledger := { s.ledger with opened := s.ledger.opened ++ [fd] } } := by
  obtain ⟨L, hL, rfl⟩ := Option.map_eq_some_iff.mp h
  obtain ⟨h0, hn, rfl⟩ := Ledger.open_eq hL
  exact ⟨h0, hn, rfl⟩

theorem openClient_eq {s t : Sockets} {fd : Int} (h : s.openClient fd = some t) :
    0 ≤ fd ∧ fd ∉ s.ledger.opened ∧
      t = { s with
        clientSockFd := fd, ledger := { s.ledger with opened := s.ledger.opened ++ [fd] } } := by
  obtain ⟨L, hL, rfl⟩ := Option.map_eq_some_iff.mp h
  obtain ⟨h0, hn, rfl⟩ := Ledger.open_eq hL
  exact ⟨h0, hn, rfl⟩

/-- the two ends of the loop of `create_server`, from a state without open descriptors: past all
addresses, the field left with the answer of the last `socket`, or stopped with a server -/
def LoopEnds (zc : Bool) (n : Int) (as : List AddrAnswer) (t : Sockets) (r : Except String Bool) :
    Prop :=
  (r = .ok false ∧ (∀ a ∈ as, a.passed zc = true) ∧
      t = ⟨as.getLast?.elim n AddrAnswer.socket, -1, {}⟩ ∧
      ∀ a, as.getLast? = some a → -1 ≤ a.socket) ∨
    (r ≠ .ok false ∧ (¬ ∀ a ∈ as, a.passed zc = true) ∧ ∃ fd, 0 ≤ fd ∧ t = ⟨fd, -1, ⟨[fd], []⟩⟩)

section
variable {zc : Bool} {n : Int} {a : AddrAnswer} {as : List AddrAnswer} {t : Sockets}
  {r : Except String Bool}

theorem loopEnds_next (hp : a.passed zc = true) (ha : -1 ≤ a.socket)
    (h : LoopEnds zc a.socket as t r) : LoopEnds zc n (a :: as) t r := by
  rcases h with ⟨h1, h2, h3, h4⟩ | ⟨h1, h2, h3⟩
  · refine .inl ⟨h1, List.forall_mem_cons.mpr ⟨hp, h2⟩, ?_, ?_⟩
    · rw [h3, List.getLast?_cons]
      cases as.getLast? <;> rfl
    · rw [List.getLast?_cons]
      cases hl : as.getLast? with
      | none => intro b hb; cases hb; exact ha
      | some c => intro b hb; cases hb; exact h4 c hl
  · exact .inr ⟨h1, fun hall => h2 (List.forall_mem_cons.mp hall).2, h3⟩

theorem loopEnds_stop (hp : a.passed zc = false) (h0 : 0 ≤ a.socket) (hr : r ≠ .ok false) :
    LoopEnds zc n (a :: as) ⟨a.socket, -1, ⟨[a.socket], []⟩⟩ r := by
  refine .inr ⟨hr, fun hall => ?_, a.socket, h0, rfl⟩
  rw [(List.forall_mem_cons.mp hall).1] at hp
  cases hp

/-- **The loop of `create_server` ends in one of its two ways.** -/
theorem bindLoop_spec (h : bindLoop zc ⟨n, -1, {}⟩ as = some (t, r)) : LoopEnds zc n as t r := by
  induction as generalizing n with
  | nil =>
    cases h
    exact .inl ⟨rfl, by simp, rfl, by simp⟩
  | cons a as ih =>
    unfold bindLoop at h
    by_cases hs : a.socket = -1
    · rw [if_pos hs] at h
      have hb : bindLoop zc ⟨a.socket, -1, {}⟩ as = some (t, r) := by rw [hs]; exact h
      exact loopEnds_next (by simp [AddrAnswer.passed, hs]) (by omega) (ih hb)
    rw [if_neg hs] at h
    obtain ⟨s, ho, hb⟩ := Option.bind_eq_some_iff.mp h
    obtain ⟨h0, -, rfl⟩ := openServer_eq ho
    by_cases h1 : (!a.reuseAddr) = true
    · rw [if_pos h1] at hb
      cases hb
      exact loopEnds_stop (by simp_all [AddrAnswer.passed]) h0 nofun
    rw [if_neg h1] at hb
    by_cases h2 : (zc && !a.zeroCopy) = true
    · rw [if_pos h2] at hb
      cases hb
      exact loopEnds_stop (by simp_all [AddrAnswer.passed]) h0 nofun
    rw [if_neg h2] at hb
    by_cases h3 : (!a.bind) = true
    · rw [if_pos h3] at hb
      -- the refused socket is closed, its number stays in the field
      have hc : (⟨a.socket, -1, ⟨[a.socket], []⟩⟩ : Sockets).closeServer = ⟨a.socket, -1, {}⟩ := by
        unfold closeServer
        rw [close_only]
      refine loopEnds_next ?_ (by omega) (ih (hc ▸ hb))
      cases zc <;> simp_all [AddrAnswer.passed]
    · rw [if_neg h3] at hb
      cases hb
      exact loopEnds_stop (by simp_all [AddrAnswer.passed]) h0 nofun

theorem bindLoop_stray {s : Sockets} (h : bindLoop zc s as = some (t, r))
    (hs : s.ledger.stray ≠ []) : t.ledger.stray ≠ [] := by
  induction as generalizing s with
  | nil => cases h; exact hs
  | cons a as ih =>
    unfold bindLoop at h
    by_cases ha : a.socket = -1
    · rw [if_pos ha] at h
      exact ih h hs
    rw [if_neg ha] at h
    obtain ⟨s', ho, hb⟩ := Option.bind_eq_some_iff.mp h
    obtain ⟨-, -, rfl⟩ := openServer_eq ho
    split at hb
    · cases hb; exact hs
    split at hb
    · cases hb; exact hs
    split at hb
    · exact ih hb (Ledger.close_stray _ hs)
    · cases hb; exact hs

end

theorem createServer_stray {zc : Bool} {s t : Sockets} {addrs : AddrInfo} {listen : Bool}
    {r : Except String Unit} (h : createServer zc s addrs listen = some (t, r))
    (hs : s.ledger.stray ≠ []) : t.ledger.stray ≠ [] := by
  cases addrs with
  | error msg => cases h; exact hs
  | ok as =>
    obtain ⟨⟨t', r'⟩, hb, he⟩ := Option.map_eq_some_iff.mp h
    cases he
    exact bindLoop_stray hb hs

theorem acceptAndStart_stray {s t : Sockets} {a : InitAnswers} {r : Except String Unit}
    (h : s.acceptAndStart a = some (t, r)) (hs : s.ledger.stray ≠ []) : t.ledger.stray ≠ [] := by
  obtain ⟨⟨u, ru⟩, hg, he⟩ := Option.map_eq_some_iff.mp h
  have hu : u.ledger.stray ≠ [] := by
    unfold getClient at hg
    split at hg
    · cases hg; exact hs
    · obtain ⟨v, hv, he⟩ := Option.map_eq_some_iff.mp hg
      obtain ⟨-, -, rfl⟩ := openClient_eq hv
      cases he
      exact hs
  cases ru with
  | error msg => cases he; exact hu
  | ok _ =>
    cases ht : a.thread.error with
    | none => simp only [ht] at he; cases he; exact Ledger.close_stray _ hu
    | some msg => simp only [ht] at he; cases he; exact Ledger.close_stray _ hu

/-- **A stray `close` stays on record through every call.** -/
theorem call_stray {zc : Bool} {s t : Sockets} {c : SenderCall} (h : s.call zc c = some t)
    (hs : s.ledger.stray ≠ []) : t.ledger.stray ≠ [] := by
  cases c with
  | send => cases h; exact hs
  | endSender => cases h; exact closeSockets_stray hs
  | callInitialize a =>
    obtain ⟨⟨t', r⟩, hi, rfl⟩ := Option.map_eq_some_iff.mp h
    obtain ⟨⟨u, ru⟩, hc, he⟩ := Option.bind_eq_some_iff.mp hi
    have hu := createServer_stray hc (closeSockets_stray hs)
    cases ru with
    | error msg => cases he; exact hu
    | ok _ => exact acceptAndStart_stray he hu

/-- `accept` and the thread creation, after a server that listens -/
theorem acceptAndStart_tidy {fd : Int} {t : Sockets} {a : InitAnswers} {r : Except String Unit}
    (h0 : 0 ≤ fd) (h : acceptAndStart ⟨fd, -1, ⟨[fd], []⟩⟩ a = some (t, r)) : t.Tidy := by
  obtain ⟨⟨u, ru⟩, hg, he⟩ := Option.map_eq_some_iff.mp h
  unfold getClient at hg
  by_cases ha : a.accept = -1
  · rw [if_pos ha] at hg
    cases hg
    cases he
    exact .listening fd h0
  · rw [if_neg ha] at hg
    obtain ⟨v, hv, he'⟩ := Option.map_eq_some_iff.mp hg
    cases he'
    obtain ⟨h1, hn, rfl⟩ := openClient_eq hv
    have hd : dropServer ⟨fd, a.accept, ⟨[fd] ++ [a.accept], []⟩⟩
        = ⟨-1, a.accept, ⟨[a.accept], []⟩⟩ := by
      simp [dropServer, closeServer, Ledger.close]
    cases ht : a.thread.error with
    | none =>
      simp only [ht] at he
      cases he
      exact hd ▸ .connected a.accept h1
    | some msg =>
      simp only [ht] at he
      cases he
      exact hd ▸ .connected a.accept h1

/-- **A call on a tidy sender**: tidy again, unless it exhausts the addresses, and then the server
field dangles. -/
theorem Tidy.call {zc : Bool} {s t : Sockets} {c : SenderCall} (hs : s.Tidy)
    (h : s.call zc c = some t) :
    (¬ c.Exhausts zc ∧ t.Tidy) ∨ (c.Exhausts zc ∧ t.Dangling) := by
  cases c with
  | send => cases h; exact .inl ⟨id, hs⟩
  | endSender =>
    cases h
    rw [hs.closeSockets_eq]
    exact .inl ⟨id, .closed⟩
  | callInitialize a =>
    obtain ⟨⟨t', r⟩, hi, rfl⟩ := Option.map_eq_some_iff.mp h
    obtain ⟨⟨u, ru⟩, hc, he⟩ := Option.bind_eq_some_iff.mp hi
    rw [hs.closeSockets_eq] at hc
    obtain ⟨addrs, listen, accept, thread⟩ := a
    cases addrs with
    | error msg =>
      cases hc
      cases he
      exact .inl ⟨id, .closed⟩
    | ok as =>
      obtain ⟨⟨v, rv⟩, hb, he'⟩ := Option.map_eq_some_iff.mp hc
      cases he'
      rcases bindLoop_spec hb with ⟨rfl, hall, rfl, hlast⟩ | ⟨hr, hall, fd, h0, rfl⟩
      · cases he
        cases hl : as.getLast? with
        | none =>
          refine .inl ⟨fun ⟨_, b, hb', _⟩ => ?_, .closed⟩
          rw [hl] at hb'
          cases hb'
        | some b =>
          by_cases hn : b.socket = -1
          · refine .inl ⟨fun ⟨_, b', hb', hn'⟩ => ?_, ?_⟩
            · rw [hl] at hb'
              cases hb'
              exact hn' hn
            · show Tidy ⟨b.socket, -1, {}⟩
              rw [hn]
              exact .closed
          · have := hlast b hl
            exact .inr ⟨⟨hall, b, hl, hn⟩, .mk b.socket (by omega)⟩
      · refine .inl ⟨fun hx => hall hx.1, ?_⟩
        cases rv with
        | error msg => cases he; exact .listening fd h0
        | ok b =>
          cases b with
          | false => exact absurd rfl hr
          | true =>
            cases listen with
            | true => exact acceptAndStart_tidy h0 he
            | false => cases he; exact .listening fd h0

/-- a call on a sender with a dangling server: nothing, or a stray `close` -/
theorem Dangling.call {zc : Bool} {s t : Sockets} {c : SenderCall} (hs : s.Dangling)
    (h : s.call zc c = some t) : t.Dangling ∨ t.ledger.stray ≠ [] := by
  cases c with
  | send => cases h; exact .inl hs
  | endSender => cases h; exact .inr hs.closeSockets_stray
  | callInitialize a =>
    right
    obtain ⟨⟨t', r⟩, hi, rfl⟩ := Option.map_eq_some_iff.mp h
    obtain ⟨⟨u, ru⟩, hc, he⟩ := Option.bind_eq_some_iff.mp hi
    have hu := createServer_stray hc hs.closeSockets_stray
    cases ru with
    | error msg => cases he; exact hu
    | ok _ => exact acceptAndStart_stray he hu

end Sockets

/-! ## Whole lives of a sender -/

section
variable {zc : Bool} {s t : Sockets} {es : List SenderCall}

/-- the calls so far and the state they left -/
def CallsLeft (zc : Bool) (es : List SenderCall) (s : Sockets) : Prop :=
  ((∀ c ∈ es, ¬ c.Exhausts zc) ∧ s.Tidy) ∨
    ((∃ c ∈ es, c.Exhausts zc) ∧ (s.Dangling ∨ s.ledger.stray ≠ []))

theorem callsLeft_of_run (h : (senderCalls zc).run {} es = some s) : CallsLeft zc es s := by
  refine (Machine.runs_of_run h).follows (CallsLeft zc) (.inl ⟨by simp, .closed⟩) ?_
  rintro l v c v' (⟨hl, hv⟩ | ⟨⟨c', hc', hx⟩, hv⟩) - hs
  · rcases hv.call hs with ⟨hx, hv'⟩ | ⟨hx, hv'⟩
    · refine .inl ⟨fun d hd => ?_, hv'⟩
      rcases List.mem_append.mp hd with hd | hd
      · exact hl d hd
      · rw [List.mem_singleton.mp hd]; exact hx
    · exact .inr ⟨⟨c, by simp, hx⟩, .inl hv'⟩
  · refine .inr ⟨⟨c', List.mem_append_left _ hc', hx⟩, ?_⟩
    rcases hv with hv | hv
    · exact hv.call hs
    · exact .inr (Sockets.call_stray hs hv)

/-- **A sender's life ends with every descriptor it opened closed exactly once, no other one ever
closed, and with fields that name open descriptors all along, if and only if no call of
`initialize` runs out of addresses in `bind`.** -/
theorem closed_once_iff (h : (senderCalls zc).run {} (es ++ [.endSender]) = some t) :
    (t.ledger.stray = [] ∧ t.ledger.opened = [] ∧
        ∀ es₁ es₂ s, es = es₁ ++ es₂ → (senderCalls zc).run {} es₁ = some s → s.FieldsOpen) ↔
      ∀ c ∈ es, ¬ c.Exhausts zc := by
  have hl := callsLeft_of_run h
  constructor
  · rintro ⟨hstray, -, -⟩ c hc hx
    rw [Machine.run_append] at h
    obtain ⟨s, hr, hend⟩ := Option.bind_eq_some_iff.mp h
    have ht : s.closeSockets = t := Option.some.inj hend
    rcases callsLeft_of_run hr with ⟨hno, -⟩ | ⟨-, hs | hs⟩
    · exact hno c hc hx
    · exact hs.closeSockets_stray (ht ▸ hstray)
    · exact Sockets.closeSockets_stray hs (ht ▸ hstray)
  · intro hno
    have tidy : ∀ es₁ es₂ s, es = es₁ ++ es₂ → (senderCalls zc).run {} es₁ = some s → s.Tidy := by
      rintro es₁ es₂ s rfl hr
      rcases callsLeft_of_run hr with ⟨-, hs⟩ | ⟨⟨c, hc, hx⟩, -⟩
      · exact hs
      · exact absurd hx (hno c (List.mem_append_left _ hc))
    rw [Machine.run_append] at h
    obtain ⟨s, hr, hend⟩ := Option.bind_eq_some_iff.mp h
    have ht : s.closeSockets = t := Option.some.inj hend
    rw [(tidy es [] s (List.append_nil es).symm hr).closeSockets_eq] at ht
    subst ht
    exact ⟨rfl, rfl, fun es₁ es₂ s he hr => (tidy es₁ es₂ s he hr).fieldsOpen⟩

/-- a port in use: one address, whose socket 3 is refused by `bind` -/
def portInUse : InitAnswers :=
  ⟨.ok [⟨3, true, true, false⟩], true, -1, ⟨[], 0⟩⟩

/-- a client, descriptor 4, on the second address -/
def clientThere : InitAnswers :=
  ⟨.ok [⟨-1, true, true, true⟩, ⟨3, true, true, true⟩], true, 4, ⟨[0, 0, 0, 0, 0], 0⟩⟩

/-- a life with two sessions -/
theorem closed_once_two_sessions :
    ({} : Sockets).ledger.stray = [] ∧ ({} : Sockets).ledger.opened = [] ∧
      ∀ es₁ es₂ s, [.callInitialize clientThere, .send, .callInitialize clientThere] = es₁ ++ es₂ →
        (senderCalls true).run {} es₁ = some s → s.FieldsOpen := by
  have h : (senderCalls true).run {}
      ([.callInitialize clientThere, .send, .callInitialize clientThere] ++ [.endSender])
        = some {} := by
    decide
  refine (closed_once_iff h).mpr ?_
  intro c hc hx
  simp only [List.mem_cons, List.not_mem_nil, or_false] at hc
  rcases hc with rfl | rfl | rfl
  · exact absurd hx.1 (by decide)
  · exact hx
  · exact absurd hx.1 (by decide)

/-- **A port in use makes either sender close its server descriptor twice.** -/
theorem closed_twice :
    ((senderCalls false).run {} [.callInitialize portInUse, .endSender]).map
        (fun s => s.ledger.stray) = some [3] ∧
      ((senderCalls true).run {} [.callInitialize portInUse, .endSender]).map
        (fun s => s.ledger.stray) = some [3] := by
  decide

end
end RealTimeTransfer

import RealTimeTransfer.Lib.Machine
import RealTimeTransfer.Senders.DataPackets
import Mathlib.Logic.Function.Basic

/-!
# The memory of a list

The other modules take a `DataPacketsList` for the list of its packets.  Here it is what
`data_packets.h` makes of it: a pointer to a block of `malloc` and a count, with a constructor, a
destructor, a copy constructor and a copy assignment.  A packet that nobody has written is `none`.

* `ListMemory`        the blocks, and the objects at their addresses;
* `ListRun.step`      a call on the memory, and on the values that the objects stand for;
* `Owned`             every object has a block of its own, and there are no others;
* `lists_are_values`  no block is lost, freed twice or used after that, and the objects hold their
                      values, unless a list with a packet in it is assigned to itself.
-/

namespace RealTimeTransfer
open Machines Words

/-- `sizeof(DataPacket)`, and the width of `size_t` -/
structure Layout where
  sizeofPacket : Nat
  sizeT : Nat
  pos : 0 < sizeofPacket

/-- the packets in the block of `malloc(n * sizeof(DataPacket))` -/
def Layout.packets (L : Layout) (n : Nat) : Nat :=
  toU L.sizeT (n * L.sizeofPacket : Nat) / L.sizeofPacket

abbrev Cells := List (Option DataPacket)

/-- the fields of a `DataPacketsList` -/
structure ListObject where
  packets : Ptr
  numPackets : Nat
  deriving DecidableEq, Repr

/-- the blocks that are allocated, and the objects, destroyed or not, at their addresses;
`undefined` is set by a call that has no defined behaviour -/
structure ListMemory where
  blocks : Ptr → Option Cells := fun _ => none
  objects : Ptr → Option ListObject := fun _ => none
  exited : Bool := false
  undefined : Bool := false

namespace ListMemory

/-- `packets = malloc(..)` with the answer `p`, and `exit(1)` if that is NULL -/
def allocate (L : Layout) (m : ListMemory) (o : Ptr) (n : Nat) (p : Ptr) : ListMemory :=
  let m := { m with objects := Function.update m.objects o (some ⟨p, n⟩) }
  if p = 0 then { m with exited := true }
  else { m with blocks := Function.update m.blocks p (some (List.replicate (L.packets n) none)) }

/-- `if(NULL != packets) { free(packets); packets = NULL; }` -/
def release (m : ListMemory) (o : Ptr) : ListMemory :=
  match m.objects o with
  | none => { m with undefined := true }
  | some x =>
    if x.packets = 0 then m
    else if m.blocks x.packets = none then { m with undefined := true }
    else
      { m with
        blocks := Function.update m.blocks x.packets none,
        objects := Function.update m.objects o (some { x with packets := 0 }) }

/-- the block of an object -/
def contents (m : ListMemory) (o : Ptr) : Option Cells :=
  (m.objects o).bind fun x => m.blocks x.packets

/-- `memcpy(packets, obj.packets, obj.num_packets * sizeof(DataPacket))`, whose arguments may not
overlap -/
def copyPackets (L : Layout) (m : ListMemory) (o obj : Ptr) : ListMemory :=
  match m.objects o, m.objects obj, m.contents o, m.contents obj with
  | some x, some y, some d, some s =>
    let n := L.packets y.numPackets
    if n ≤ d.length ∧ n ≤ s.length ∧ (x.packets = y.packets → n = 0) then
      { m with blocks := Function.update m.blocks x.packets (some (s.take n ++ d.drop n)) }
    else { m with undefined := true }
  | _, _, _, _ => { m with undefined := true }

/-- the end of the copy constructor and of the assignment -/
def copyFrom (L : Layout) (m : ListMemory) (o obj p : Ptr) : ListMemory :=
  match m.objects obj with
  | none => { m with undefined := true }
  | some y =>
    let m := m.allocate L o y.numPackets p
    if m.exited then m else m.copyPackets L o obj

/-- `DataPacketsList(num_packets_)` -/
def construct := allocate

/-- `~DataPacketsList()` -/
def destroy := release

/-- `DataPacketsList(const DataPacketsList &obj)` -/
def copyConstruct := copyFrom

/-- `operator=(const DataPacketsList &obj)` -/
def assign (L : Layout) (m : ListMemory) (o obj p : Ptr) : ListMemory :=
  (m.release o).copyFrom L o obj p

/-- `packets[i] = v`, by the user -/
def write (m : ListMemory) (o : Ptr) (i : Nat) (v : DataPacket) : ListMemory :=
  match m.objects o, m.contents o with
  | some x, some l =>
    if i < l.length then
      { m with blocks := Function.update m.blocks x.packets (some (l.set i (some v))) }
    else { m with undefined := true }
  | _, _ => { m with undefined := true }

end ListMemory

/-- a call on the object at the address `o`, with the answer `p` of its `malloc` -/
inductive ListCall where
  | construct (o : Ptr) (n : Nat) (p : Ptr)
  | copyConstruct (o obj p : Ptr)
  | assign (o obj p : Ptr)
  | destroy (o : Ptr)
  | write (o : Ptr) (i : Nat) (v : DataPacket)
  deriving DecidableEq, Repr

def ListMemory.after (L : Layout) (m : ListMemory) : ListCall → ListMemory
  | .construct o n p => m.construct L o n p
  | .copyConstruct o obj p => m.copyConstruct L o obj p
  | .assign o obj p => m.assign L o obj p
  | .destroy o => m.destroy o
  | .write o i v => m.write o i v

/-- what the objects stand for: a value of the packets, as long as they live -/
abbrev Values := Ptr → Option Cells

def Values.after (v : Values) : ListCall → Values
  | .construct o n _ => Function.update v o (some (List.replicate n none))
  | .copyConstruct o obj _ | .assign o obj _ => Function.update v o (v obj)
  | .destroy o => Function.update v o none
  | .write o i p => Function.update v o ((v o).map fun l => l.set i (some p))

structure ListRun where
  memory : ListMemory := {}
  values : Values := fun _ => none

def ListRun.step (L : Layout) (s : ListRun) (c : ListCall) : Option ListRun :=
  if s.memory.exited || s.memory.undefined then none
  else some ⟨s.memory.after L c, s.values.after c⟩

def listRun (L : Layout) : Machine ListRun ListCall := ⟨ListRun.step L⟩

/-- what `malloc` promises: its block is none of those allocated -/
def ListMemory.Fresh (m : ListMemory) (p : Ptr) : Prop := p ≠ 0 → m.blocks p = none

/-- what the user and `malloc` promise: a constructor is called where no object lives, the other
calls where one does (a destructor may be called twice), and no size wraps -/
def CallOk (L : Layout) (s : ListRun) : ListCall → Prop
  | .construct o n p =>
    s.values o = none ∧ n * L.sizeofPacket < 2^L.sizeT ∧ s.memory.Fresh p
  | .copyConstruct o obj p => s.values o = none ∧ s.values obj ≠ none ∧ s.memory.Fresh p
  | .assign o obj p => s.values o ≠ none ∧ s.values obj ≠ none ∧ (s.memory.release o).Fresh p
  | .destroy o => s.memory.objects o ≠ none
  | .write o i _ => ∃ l ∈ s.values o, i < l.length

instance {L : Layout} (s : ListRun) (c : ListCall) : Decidable (CallOk L s c) :=
  match c with
  | .construct _ _ _ => inferInstanceAs (Decidable (_ ∧ _ ∧ (_ → _)))
  | .copyConstruct _ _ _ => inferInstanceAs (Decidable (_ ∧ _ ∧ (_ → _)))
  | .assign _ _ _ => inferInstanceAs (Decidable (_ ∧ _ ∧ (_ → _)))
  | .destroy _ => inferInstanceAs (Decidable (_ ≠ _))
  | .write o i _ => inferInstanceAs (Decidable (∃ l ∈ s.values o, i < l.length))

/-- a list with a packet in it is assigned to itself, and there is memory for it -/
def ToItself (s : ListRun) : ListCall → Prop
  | .assign o obj p => o = obj ∧ p ≠ 0 ∧ s.values o ≠ some []
  | _ => False

/-! ## The blocks -/

/-- every living object has a block of its own, of the size of its value; the destroyed ones have
none, and there is no other block -/
structure Owned (L : Layout) (m : ListMemory) (v : Values) : Prop where
  block : ∀ o l, v o = some l → ∃ x b, m.objects o = some x ∧ x.packets ≠ 0 ∧
    m.blocks x.packets = some b ∧ x.numPackets = l.length ∧ b.length = l.length
  fits : ∀ o l, v o = some l → l.length * L.sizeofPacket < 2^L.sizeT
  destroyed : ∀ o x, v o = none → m.objects o = some x → x.packets = 0
  apart : ∀ o o' x x', v o ≠ none → v o' ≠ none → m.objects o = some x → m.objects o' = some x' →
    x.packets = x'.packets → o = o'
  none_lost : ∀ p, m.blocks p ≠ none → ∃ o x, v o ≠ none ∧ m.objects o = some x ∧ x.packets = p

/-- the objects hold their values -/
def Holds (m : ListMemory) (v : Values) : Prop := ∀ o l, v o = some l → m.contents o = some l

/-- after a call that has a defined behaviour -/
def WellDefined (L : Layout) (m : ListMemory) (v : Values) : Prop :=
  m.undefined = false ∧ (m.exited = false → Owned L m v ∧ Holds m v)

section
variable {L : Layout} {m : ListMemory} {v : Values} {o obj p : Ptr} {n : Nat} {l : Cells}

theorem Layout.packets_eq (h : n * L.sizeofPacket < 2^L.sizeT) : L.packets n = n := by
  unfold Layout.packets
  rw [toU_of_lt h]
  exact Nat.mul_div_cancel n L.pos

/-- the memory `m'` holds `b` at `o`, and what `m` holds elsewhere; no flag is set -/
structure Stores (m : ListMemory) (v : Values) (o : Ptr) (b : Option Cells) (m' : ListMemory) :
    Prop where
  here : m'.contents o = b
  elsewhere : ∀ o', o' ≠ o → v o' ≠ none → m'.contents o' = m.contents o'
  objects : ∀ o', o' ≠ o → m'.objects o' = m.objects o'
  flags : m'.exited = m.exited ∧ m'.undefined = m.undefined

theorem Stores.trans {m' m'' : ListMemory} {v' : Values} {b b' : Option Cells}
    (h : Stores m v o b m') (h' : Stores m' v' o b' m'') (hv : ∀ o', o' ≠ o → v' o' = v o') :
    Stores m v o b' m'' :=
  ⟨h'.here,
    fun q hq hl => (h'.elsewhere q hq (by rw [hv q hq]; exact hl)).trans (h.elsewhere q hq hl),
    fun q hq => (h'.objects q hq).trans (h.objects q hq),
    h'.flags.1.trans h.flags.1, h'.flags.2.trans h.flags.2⟩

theorem Owned.null (h : Owned L m v) : m.blocks 0 = none := by
  by_contra hne
  obtain ⟨o, x, hv, hx, h0⟩ := h.none_lost 0 hne
  obtain ⟨l, hl⟩ := Option.ne_none_iff_exists'.mp hv
  obtain ⟨y, -, hy, hne, -⟩ := h.block o l hl
  rw [hx] at hy
  cases hy
  exact hne h0

theorem Owned.packets_ne (h : Owned L m v) {o' : Ptr} {x x' : ListObject} (ho : v o ≠ none)
    (ho' : v o' ≠ none) (hne : o' ≠ o) (hx : m.objects o = some x) (hx' : m.objects o' = some x') :
    x'.packets ≠ x.packets := fun he => hne (h.apart o' o x' x ho' ho hx' hx he)

theorem Owned.store (h : Owned L m v) {x : ListObject} {t b : Cells} (hl : v o = some l)
    (hx : m.objects o = some x) (hb : b.length = l.length) (ht : t.length = l.length) :
    let m' := { m with blocks := Function.update m.blocks x.packets (some b) }
    Owned L m' (Function.update v o (some t)) ∧ Stores m v o (some b) m' := by
  have hv : v o ≠ none := by rw [hl]; nofun
  obtain ⟨y, c, hy, h0, hc, hn, -⟩ := h.block o l hl
  rw [hx] at hy
  cases hy
  have lives : ∀ q, Function.update v o (some t) q ≠ none → v q ≠ none := by
    intro q hq
    by_cases hqo : q = o
    · exact hqo ▸ hv
    · rwa [Function.update_of_ne hqo] at hq
  refine ⟨⟨fun q k hk => ?_, fun q k hk => ?_, fun q z hq hz => ?_,
      fun q q' z z' hq hq' => h.apart q q' z z' (lives q hq) (lives q' hq'), fun r hr => ?_⟩,
    ⟨?_, fun q hq hvq => ?_, fun q _ => rfl, rfl, rfl⟩⟩
  · by_cases hqo : q = o
    · subst hqo
      rw [Function.update_self] at hk
      cases hk
      exact ⟨x, b, hx, h0, Function.update_self .., hn.trans ht.symm, hb.trans ht.symm⟩
    · rw [Function.update_of_ne hqo] at hk
      obtain ⟨z, d, hz, hz0, hd, hlen⟩ := h.block q k hk
      refine ⟨z, d, hz, hz0, ?_, hlen⟩
      have hne := h.packets_ne hv (by rw [hk]; nofun) hqo hx hz
      exact (Function.update_of_ne hne _ _).trans hd
  · by_cases hqo : q = o
    · subst hqo
      rw [Function.update_self] at hk
      cases hk
      rw [ht]
      exact h.fits q l hl
    · rw [Function.update_of_ne hqo] at hk
      exact h.fits q k hk
  · by_cases hqo : q = o
    · subst hqo
      rw [Function.update_self] at hq
      cases hq
    · rw [Function.update_of_ne hqo] at hq
      exact h.destroyed q z hq hz
  · by_cases hrx : r = x.packets
    · exact ⟨o, x, by rw [Function.update_self]; nofun, hx, hrx.symm⟩
    · have hr' : m.blocks r ≠ none := by
        change Function.update m.blocks x.packets (some b) r ≠ none at hr
        rwa [Function.update_of_ne hrx] at hr
      obtain ⟨q, z, hq, hz, hzr⟩ := h.none_lost r hr'
      refine ⟨q, z, ?_, hz, hzr⟩
      by_cases hqo : q = o
      · rw [hqo, Function.update_self]
        nofun
      · rwa [Function.update_of_ne hqo]
  · show (m.objects o).bind _ = _
    rw [hx]
    exact Function.update_self ..
  · obtain ⟨k, hk⟩ := Option.ne_none_iff_exists'.mp hvq
    obtain ⟨z, d, hz, -, hd, -⟩ := h.block q k hk
    show (m.objects q).bind _ = (m.objects q).bind _
    rw [hz]
    exact Function.update_of_ne (h.packets_ne hv hvq hq hx hz) _ _

/-- **The destructor**, also of an object that is destroyed already. -/
theorem Owned.release (h : Owned L m v) (ho : m.objects o ≠ none) :
    Owned L (m.release o) (Function.update v o none) ∧ Stores m v o none (m.release o) ∧
      ∃ x, m.objects o = some x ∧ (m.release o).objects o = some { x with packets := 0 } := by
  obtain ⟨x, hx⟩ := Option.ne_none_iff_exists'.mp ho
  cases hv : v o with
  | none =>
    have h0 : x.packets = 0 := h.destroyed o x hv hx
    have hm : m.release o = m := by
      unfold ListMemory.release
      simp [hx, h0]
    have hupdate : Function.update v o none = v := by
      rw [← hv]
      exact Function.update_eq_self ..
    rw [hm, hupdate]
    refine ⟨h, ⟨?_, fun _ _ _ => rfl, fun _ _ => rfl, rfl, rfl⟩, x, hx, ?_⟩
    · show (m.objects o).bind _ = none
      rw [hx]
      show m.blocks x.packets = none
      rw [h0]
      exact h.null
    · rw [hx, ← h0]
  | some l =>
    have hvo : v o ≠ none := by rw [hv]; nofun
    obtain ⟨y, b, hy, h0, hb, -, -⟩ := h.block o l hv
    rw [hx] at hy
    cases hy
    have hm : m.release o = { m with
        blocks := Function.update m.blocks x.packets none,
        objects := Function.update m.objects o (some { x with packets := 0 }) } := by
      unfold ListMemory.release
      simp [hx, h0, hb]
    rw [hm]
    have other : ∀ q k, q ≠ o → Function.update v o none q = some k → v q = some k := by
      intro q k hqo hk
      rwa [Function.update_of_ne hqo] at hk
    have living : ∀ q, Function.update v o none q ≠ none → q ≠ o ∧ v q ≠ none := by
      intro q hq
      by_cases hqo : q = o
      · rw [hqo, Function.update_self] at hq
        exact absurd rfl hq
      · exact ⟨hqo, by rwa [Function.update_of_ne hqo] at hq⟩
    have kept : ∀ q, q ≠ o → v q ≠ none → ∃ z, m.objects q = some z ∧
        Function.update m.blocks x.packets none z.packets = m.blocks z.packets := by
      intro q hqo hq
      obtain ⟨k, hk⟩ := Option.ne_none_iff_exists'.mp hq
      obtain ⟨z, -, hz, -⟩ := h.block q k hk
      exact ⟨z, hz, Function.update_of_ne (h.packets_ne hvo hq hqo hx hz) _ _⟩
    refine ⟨⟨fun q k hk => ?_, fun q k hk => ?_, fun q z hq hz => ?_,
        fun q q' z z' hq hq' hz hz' he => ?_, fun r hr => ?_⟩,
      ⟨?_, fun q hqo hq => ?_, fun q hqo => Function.update_of_ne hqo _ _, rfl, rfl⟩,
      x, hx, Function.update_self ..⟩
    · obtain ⟨hqo, hq⟩ := living q (by rw [hk]; nofun)
      obtain ⟨z, d, hz, hz0, hd, hlen⟩ := h.block q k (other q k hqo hk)
      obtain ⟨z', hz', hkeep⟩ := kept q hqo hq
      rw [hz] at hz'
      cases hz'
      exact ⟨z, d, (Function.update_of_ne hqo _ _).trans hz, hz0, hkeep.trans hd, hlen⟩
    · exact h.fits q k (other q k (living q (by rw [hk]; nofun)).1 hk)
    · by_cases hqo : q = o
      · subst hqo
        change Function.update m.objects q _ q = some z at hz
        rw [Function.update_self] at hz
        cases hz
        rfl
      · rw [Function.update_of_ne hqo] at hq
        exact h.destroyed q z hq ((Function.update_of_ne hqo _ _).symm.trans hz)
    · obtain ⟨hqo, hvq⟩ := living q hq
      obtain ⟨hqo', hvq'⟩ := living q' hq'
      exact h.apart q q' z z' hvq hvq' ((Function.update_of_ne hqo _ _).symm.trans hz)
        ((Function.update_of_ne hqo' _ _).symm.trans hz') he
    · by_cases hrx : r = x.packets
      · rw [hrx] at hr
        exact absurd (Function.update_self ..) hr
      · have hr' : m.blocks r ≠ none := by
          change Function.update m.blocks x.packets none r ≠ none at hr
          rwa [Function.update_of_ne hrx] at hr
        obtain ⟨q, z, hq, hz, hzr⟩ := h.none_lost r hr'
        have hqo : q ≠ o := by
          rintro rfl
          rw [hx] at hz
          cases hz
          exact hrx hzr.symm
        refine ⟨q, z, ?_, (Function.update_of_ne hqo _ _).trans hz, hzr⟩
        rwa [Function.update_of_ne hqo]
    · show (Function.update m.objects o _ o).bind _ = none
      rw [Function.update_self]
      show Function.update m.blocks x.packets none 0 = none
      rw [Function.update_of_ne (Ne.symm h0)]
      exact h.null
    · obtain ⟨z, hz, hkeep⟩ := kept q hqo hq
      show (Function.update m.objects o _ q).bind _ = (m.objects q).bind _
      rw [Function.update_of_ne hqo, hz]
      exact hkeep

/-- **The constructor**, where no object lives. -/
theorem Owned.allocate (h : Owned L m v) (hv : v o = none) (hn : n * L.sizeofPacket < 2^L.sizeT)
    (hp : p ≠ 0) (hf : m.Fresh p) :
    Owned L (m.allocate L o n p) (Function.update v o (some (List.replicate n none))) ∧
      Stores m v o (some (List.replicate n none)) (m.allocate L o n p) ∧
      (m.allocate L o n p).objects o = some ⟨p, n⟩ := by
  have hm : m.allocate L o n p = { m with
      blocks := Function.update m.blocks p (some (List.replicate n none)),
      objects := Function.update m.objects o (some ⟨p, n⟩) } := by
    unfold ListMemory.allocate
    rw [if_neg hp, Layout.packets_eq hn]
  have hfree : m.blocks p = none := hf hp
  have living : ∀ q z, q ≠ o → v q ≠ none → m.objects q = some z → z.packets ≠ p := by
    intro q z _ hq hz he
    obtain ⟨k, hk⟩ := Option.ne_none_iff_exists'.mp hq
    obtain ⟨y, d, hy, -, hd, -⟩ := h.block q k hk
    rw [hz] at hy
    cases hy
    rw [he, hfree] at hd
    cases hd
  rw [hm]
  refine ⟨⟨fun q k hk => ?_, fun q k hk => ?_, fun q z hq hz => ?_,
      fun q q' z z' hq hq' hz hz' he => ?_, fun r hr => ?_⟩,
    ⟨?_, fun q hqo hq => ?_, fun q hqo => Function.update_of_ne hqo _ _, rfl, rfl⟩,
    Function.update_self ..⟩
  · by_cases hqo : q = o
    · subst hqo
      rw [Function.update_self] at hk
      cases hk
      exact ⟨⟨p, n⟩, _, Function.update_self .., hp, Function.update_self ..,
        List.length_replicate.symm, rfl⟩
    · rw [Function.update_of_ne hqo] at hk
      obtain ⟨z, d, hz, hz0, hd, hlen⟩ := h.block q k hk
      have hne := living q z hqo (by rw [hk]; nofun) hz
      exact ⟨z, d, (Function.update_of_ne hqo _ _).trans hz, hz0,
        (Function.update_of_ne hne _ _).trans hd, hlen⟩
  · by_cases hqo : q = o
    · subst hqo
      rw [Function.update_self] at hk
      cases hk
      rwa [List.length_replicate]
    · rw [Function.update_of_ne hqo] at hk
      exact h.fits q k hk
  · by_cases hqo : q = o
    · subst hqo
      rw [Function.update_self] at hq
      cases hq
    · rw [Function.update_of_ne hqo] at hq
      exact h.destroyed q z hq ((Function.update_of_ne hqo _ _).symm.trans hz)
  · change Function.update m.objects o _ q = some z at hz
    change Function.update m.objects o _ q' = some z' at hz'
    by_cases hqo : q = o <;> by_cases hqo' : q' = o
    · rw [hqo, hqo']
    · subst hqo
      rw [Function.update_self] at hz
      rw [Function.update_of_ne hqo'] at hz' hq'
      cases hz
      exact absurd he.symm (living q' z' hqo' hq' hz')
    · subst hqo'
      rw [Function.update_self] at hz'
      rw [Function.update_of_ne hqo] at hz hq
      cases hz'
      exact absurd he (living q z hqo hq hz)
    · rw [Function.update_of_ne hqo] at hz hq
      rw [Function.update_of_ne hqo'] at hz' hq'
      exact h.apart q q' z z' hq hq' hz hz' he
  · by_cases hrp : r = p
    · exact ⟨o, ⟨p, n⟩, by rw [Function.update_self]; nofun, Function.update_self .., hrp.symm⟩
    · change Function.update m.blocks p _ r ≠ none at hr
      rw [Function.update_of_ne hrp] at hr
      obtain ⟨q, z, hq, hz, hzr⟩ := h.none_lost r hr
      have hqo : q ≠ o := fun he => hq (he ▸ hv)
      refine ⟨q, z, ?_, (Function.update_of_ne hqo _ _).trans hz, hzr⟩
      rwa [Function.update_of_ne hqo]
  · show (Function.update m.objects o _ o).bind _ = _
    rw [Function.update_self]
    exact Function.update_self ..
  · obtain ⟨k, hk⟩ := Option.ne_none_iff_exists'.mp hq
    obtain ⟨z, -, hz, -⟩ := h.block q k hk
    show (Function.update m.objects o _ q).bind _ = (m.objects q).bind _
    rw [Function.update_of_ne hqo, hz]
    exact Function.update_of_ne (living q z hqo hq hz) _ _

theorem ListMemory.allocate_null : (m.allocate L o n 0).exited = true ∧
    (m.allocate L o n 0).undefined = m.undefined := by
  unfold ListMemory.allocate
  simp

/-- **The copy** of another object that lives, where none does. -/
theorem Owned.copyFrom (h : Owned L m v) (hm : m.exited = false) (hv : v o = none)
    (hl : v obj = some l) (hp : p ≠ 0) (hf : m.Fresh p) :
    Owned L (m.copyFrom L o obj p) (Function.update v o (some l)) ∧
      Stores m v o (m.contents obj) (m.copyFrom L o obj p) := by
  have hne : obj ≠ o := fun he => by rw [he, hv] at hl; cases hl
  obtain ⟨y, b, hy, hy0, hb, hn, hlen⟩ := h.block obj l hl
  have hfits : l.length * L.sizeofPacket < 2^L.sizeT := h.fits obj l hl
  obtain ⟨h', hs, hx⟩ := h.allocate hv (hn ▸ hfits) hp hf
  obtain ⟨h'', hs'⟩ := h'.store (t := l) (b := b) (Function.update_self ..) hx
    (by rw [List.length_replicate, hlen, hn]) (by rw [List.length_replicate, hn])
  have hobj : (m.allocate L o y.numPackets p).contents obj = some b := by
    rw [hs.elsewhere obj hne (by rw [hl]; nofun)]
    unfold ListMemory.contents
    rw [hy]
    exact hb
  have hcopy : m.copyFrom L o obj p = { m.allocate L o y.numPackets p with
      blocks := Function.update (m.allocate L o y.numPackets p).blocks p (some b) } := by
    have hapart : p ≠ y.packets := fun he => by rw [← he, hf hp] at hb; cases hb
    have hpackets : L.packets l.length = l.length := Layout.packets_eq hfits
    have hexit : (m.allocate L o l.length p).exited = false := by
      rw [← hn, hs.flags.1]
      exact hm
    rw [hn] at hs hx ⊢
    unfold ListMemory.copyFrom
    rw [hy]
    simp only [hn, hexit, Bool.false_eq_true, if_false]
    unfold ListMemory.copyPackets
    rw [hx, hs.objects obj hne, hy, hs.here, ← hn, hobj]
    simp [hpackets, hn, hlen, hapart, hexit, List.take_of_length_le hlen.le]
  rw [hcopy]
  refine ⟨?_, ?_⟩
  · rwa [Function.update_idem] at h''
  · have hc : m.contents obj = some b := by
      unfold ListMemory.contents
      rw [hy]
      exact hb
    rw [hc]
    exact hs.trans hs' fun q hq => Function.update_of_ne hq _ _

theorem Owned.copyFrom_self (h : Owned L m v) (hm : m.exited = false) (hv : v o = none)
    {x : ListObject} (hx : m.objects o = some x) (hp : p ≠ 0) (hf : m.Fresh p) :
    (x.numPackets = 0 → Owned L (m.copyFrom L o o p) (Function.update v o (some [])) ∧
      Stores m v o (some []) (m.copyFrom L o o p)) ∧
    (x.numPackets * L.sizeofPacket < 2^L.sizeT → x.numPackets ≠ 0 →
      (m.copyFrom L o o p).undefined = true) := by
  have copy : x.numPackets * L.sizeofPacket < 2^L.sizeT →
      m.copyFrom L o o p = (m.allocate L o x.numPackets p).copyPackets L o o := by
    intro hfits
    have hexit := (h.allocate hv hfits hp hf).2.1.flags.1
    unfold ListMemory.copyFrom
    rw [hx]
    simp [hexit, hm]
  refine ⟨fun h0 => ?_, fun hfits h0 => ?_⟩
  · have hfits : x.numPackets * L.sizeofPacket < 2^L.sizeT := by
      rw [h0, Nat.zero_mul]
      exact Nat.two_pow_pos _
    obtain ⟨h', hs, hx'⟩ := h.allocate hv hfits hp hf
    obtain ⟨h'', hs'⟩ := h'.store (t := []) (b := []) (Function.update_self ..) hx'
      (by rw [h0]; rfl) (by rw [h0]; rfl)
    rw [h0] at h' hs hx' h'' hs'
    have hcopy : m.copyFrom L o o p = { m.allocate L o 0 p with
        blocks := Function.update (m.allocate L o 0 p).blocks p (some []) } := by
      rw [copy hfits, h0]
      unfold ListMemory.copyPackets
      rw [hx', hs.here]
      have hpackets : L.packets 0 = 0 := Layout.packets_eq (by rw [h0] at hfits; exact hfits)
      simp [hpackets]
    rw [hcopy]
    refine ⟨?_, hs.trans hs' fun q hq => Function.update_of_ne hq _ _⟩
    rwa [Function.update_idem] at h''
  · obtain ⟨-, hs, hx'⟩ := h.allocate hv hfits hp hf
    rw [copy hfits]
    unfold ListMemory.copyPackets
    rw [hx', hs.here]
    simp [Layout.packets_eq hfits, h0]

/-! ## The calls -/

theorem Stores.holds {m' : ListMemory} {b : Option Cells} (h : Stores m v o b m')
    (hh : Holds m v) : Holds m' (Function.update v o b) := by
  intro q k hk
  by_cases hqo : q = o
  · subst hqo
    rw [Function.update_self] at hk
    rw [h.here, hk]
  · rw [Function.update_of_ne hqo] at hk
    rw [h.elsewhere q hqo (by rw [hk]; nofun)]
    exact hh q k hk

theorem Stores.kept {m' : ListMemory} {b : Option Cells} (h : Stores m v o b m')
    (hm : m.undefined = false) (hh : Holds m v) (ho : Owned L m' (Function.update v o b)) :
    WellDefined L m' (Function.update v o b) :=
  ⟨h.flags.2.trans hm, fun _ => ⟨ho, h.holds hh⟩⟩

theorem WellDefined.null (hm : m.undefined = false) : WellDefined L (m.allocate L o n 0) v := by
  obtain ⟨hexit, hu⟩ := ListMemory.allocate_null (L := L) (m := m) (o := o) (n := n)
  refine ⟨hu.trans hm, fun hne => ?_⟩
  rw [hexit] at hne
  cases hne

theorem WellDefined.copyFrom_null {w : Values} (hm : m.undefined = false)
    (hobj : m.objects obj ≠ none) : WellDefined L (m.copyFrom L o obj 0) w := by
  obtain ⟨y, hy⟩ := Option.ne_none_iff_exists'.mp hobj
  have hcopy : m.copyFrom L o obj 0 = m.allocate L o y.numPackets 0 := by
    unfold ListMemory.copyFrom
    rw [hy]
    simp [ListMemory.allocate_null.1]
  rw [hcopy]
  exact WellDefined.null hm

theorem Owned.object (h : Owned L m v) (hv : v o ≠ none) : m.objects o ≠ none := by
  obtain ⟨l, hl⟩ := Option.ne_none_iff_exists'.mp hv
  obtain ⟨x, -, hx, -⟩ := h.block o l hl
  rw [hx]
  nofun

theorem Owned.copyConstruct (h : Owned L m v) (hh : Holds m v) (hm : m.exited = false)
    (hu : m.undefined = false) (hv : v o = none) (hobj : v obj ≠ none) (hf : m.Fresh p) :
    WellDefined L (m.copyFrom L o obj p) (Function.update v o (v obj)) := by
  obtain ⟨l, hl⟩ := Option.ne_none_iff_exists'.mp hobj
  by_cases hp : p = 0
  · rw [hp]
    exact WellDefined.copyFrom_null hu (h.object hobj)
  · obtain ⟨h', hs⟩ := h.copyFrom hm hv hl hp hf
    rw [hh obj l hl, ← hl] at hs
    rw [← hl] at h'
    exact hs.kept hu hh h'

/-- **The assignment** of another object. -/
theorem Owned.assign (h : Owned L m v) (hh : Holds m v) (hm : m.exited = false)
    (hu : m.undefined = false) (ho : v o ≠ none) (hobj : v obj ≠ none) (hne : obj ≠ o)
    (hf : (m.release o).Fresh p) :
    WellDefined L (m.assign L o obj p) (Function.update v o (v obj)) := by
  obtain ⟨h', hs, -⟩ := h.release (h.object ho)
  have hkept : Function.update v o none obj = v obj := Function.update_of_ne hne _ _
  have hcopy := h'.copyConstruct (hs.holds hh) (hs.flags.1.trans hm) (hs.flags.2.trans hu)
    (Function.update_self ..) (by rwa [hkept]) hf
  rwa [Function.update_idem, hkept] at hcopy

/-- **The assignment** of an object to itself. -/
theorem Owned.assign_self (h : Owned L m v) (hh : Holds m v) (hm : m.exited = false)
    (hu : m.undefined = false) (hl : v o = some l) (hf : (m.release o).Fresh p) :
    (p = 0 ∨ l = [] → WellDefined L (m.assign L o o p) v) ∧
      (p ≠ 0 → l ≠ [] → (m.assign L o o p).undefined = true) := by
  have ho : v o ≠ none := by rw [hl]; nofun
  obtain ⟨h', hs, x, hx, hx'⟩ := h.release (h.object ho)
  obtain ⟨y, b, hy, -, -, hn, -⟩ := h.block o l hl
  rw [hx] at hy
  cases hy
  have hexit : (m.release o).exited = false := hs.flags.1.trans hm
  refine ⟨fun hc => ?_, fun hp hne => ?_⟩
  · by_cases hp : p = 0
    · subst hp
      exact WellDefined.copyFrom_null (hs.flags.2.trans hu) (by rw [hx']; nofun)
    · have hnil : l = [] := hc.resolve_left hp
      subst hnil
      have hv : Function.update v o (some []) = v := by rw [← hl]; exact Function.update_eq_self ..
      obtain ⟨h'', hs'⟩ := (h'.copyFrom_self hexit (Function.update_self ..) hx' hp hf).1 hn
      have hkept := hs'.kept (hs.flags.2.trans hu) (hs.holds hh) h''
      rwa [Function.update_idem, hv] at hkept
  · have hpackets : x.numPackets ≠ 0 := by
      rw [hn]
      exact fun h0 => hne (List.eq_nil_of_length_eq_zero h0)
    exact (h'.copyFrom_self hexit (Function.update_self ..) hx' hp hf).2
      (by rw [hn]; exact h.fits o l hl) hpackets

theorem Owned.write (h : Owned L m v) (hh : Holds m v) (hu : m.undefined = false)
    {i : Nat} {d : DataPacket} (hl : v o = some l) (hi : i < l.length) :
    WellDefined L (m.write o i d) (Function.update v o (some (l.set i (some d)))) := by
  obtain ⟨x, b, hx, -, hb, -, -⟩ := h.block o l hl
  have hc : m.contents o = some l := hh o l hl
  obtain ⟨h', hs⟩ := h.store (t := l.set i (some d)) (b := l.set i (some d)) hl hx
    List.length_set List.length_set
  have hm : m.write o i d = { m with
      blocks := Function.update m.blocks x.packets (some (l.set i (some d))) } := by
    unfold ListMemory.write
    rw [hx, hc]
    simp [hi]
  rw [hm]
  exact hs.kept hu hh h'

/-- **One call.** -/
theorem Owned.after (h : Owned L m v) (hh : Holds m v) (hm : m.exited = false)
    (hu : m.undefined = false) {c : ListCall} (hok : CallOk L ⟨m, v⟩ c) :
    (ToItself ⟨m, v⟩ c → (m.after L c).undefined = true) ∧
      (¬ ToItself ⟨m, v⟩ c → WellDefined L (m.after L c) (v.after c)) := by
  cases c with
  | construct o n p =>
    obtain ⟨hv, hn, hf⟩ := hok
    refine ⟨nofun, fun _ => ?_⟩
    by_cases hp : p = 0
    · rw [hp]
      exact WellDefined.null hu
    · obtain ⟨h', hs, -⟩ := h.allocate hv hn hp hf
      exact hs.kept hu hh h'
  | copyConstruct o obj p =>
    obtain ⟨hv, hobj, hf⟩ := hok
    exact ⟨nofun, fun _ => h.copyConstruct hh hm hu hv hobj hf⟩
  | assign o obj p =>
    obtain ⟨ho, hobj, hf⟩ := hok
    by_cases hne : obj = o
    · subst hne
      obtain ⟨l, hl⟩ := Option.ne_none_iff_exists'.mp hobj
      obtain ⟨hself, hlost⟩ := h.assign_self hh hm hu hl hf
      have hv : Values.after v (.assign obj obj p) = v := Function.update_eq_self ..
      rw [hv]
      refine ⟨fun ⟨_, hp, hnil⟩ => hlost hp fun hl' => hnil (by rw [← hl']; exact hl),
        fun hno => hself ?_⟩
      by_contra hc
      obtain ⟨hp, hnil⟩ := not_or.mp hc
      refine hno ⟨rfl, hp, fun hv' => hnil ?_⟩
      exact Option.some.inj (hl.symm.trans hv')
    · exact ⟨fun hc => absurd hc.1.symm hne, fun _ => h.assign hh hm hu ho hobj hne hf⟩
  | destroy o =>
    obtain ⟨h', hs, -⟩ := h.release hok
    exact ⟨nofun, fun _ => hs.kept hu hh h'⟩
  | write o i d =>
    obtain ⟨l, hl, hi⟩ := hok
    change v o = some l at hl
    have hv : Values.after v (.write o i d) = Function.update v o (some (l.set i (some d))) := by
      show Function.update v o ((v o).map _) = _
      rw [hl]
      rfl
    rw [hv]
    exact ⟨nofun, fun _ => h.write hh hu hl hi⟩

end

section
variable {L : Layout} {s : ListRun} {es : List ListCall}

/-- **The memory of the lists.**  In every run, whatever is constructed, copied, assigned, written
and destroyed in whatever order, the behaviour becomes undefined exactly if a list with a packet in
it is assigned to itself; otherwise each list that lives has a block of its own with its value, and
no other block is allocated. -/
theorem lists_are_values (h : (listRun L).Runs (CallOk L) {} es s) :
    (s.memory.undefined = true ↔ (listRun L).Happened ToItself {} es) ∧
      (s.memory.undefined = false → s.memory.exited = false →
        Owned L s.memory s.values ∧ Holds s.memory s.values) := by
  induction h with
  | nil =>
    refine ⟨⟨nofun, fun hh => absurd hh Machine.not_happened_nil⟩, fun _ _ => ⟨?_, nofun⟩⟩
    exact ⟨nofun, nofun, nofun, fun _ _ _ _ hv => absurd rfl hv, fun _ hp => absurd rfl hp⟩
  | snoc hr hok hs ih =>
    obtain ⟨hiff, howned⟩ := ih
    have hs' := hs
    unfold listRun ListRun.step at hs'
    dsimp only at hs'
    split at hs'
    · cases hs'
    · rename_i hflags
      cases hs'
      obtain ⟨hm, hu⟩ := Bool.or_eq_false_iff.mp (Bool.not_eq_true _ ▸ hflags)
      obtain ⟨ho, hh⟩ := howned hu hm
      obtain ⟨hlost, hkept⟩ := ho.after hh hm hu hok
      rw [Machine.happened_snoc hr.run_eq]
      refine ⟨⟨fun hundef => .inr ?_, fun hc => hlost (hc.resolve_left ?_)⟩,
        fun hu' hm' => ?_⟩
      · by_contra hno
        rw [(hkept hno).1] at hundef
        cases hundef
      · rw [← hiff, hu]
        nofun
      · refine (hkept fun hc => ?_).2 hm'
        rw [hlost hc] at hu'
        cases hu'

/-- a copy is written and the original destroyed: the copy has its own packets -/
theorem lists_are_values_copy :
    ∃ s, (listRun ⟨32, 64, by decide⟩).run {}
        [.construct 100 2 500, .write 100 0 ⟨.memoryLocation, 10, 1, 0⟩, .copyConstruct 200 100 600,
          .write 200 1 ⟨.memoryLocation, 20, 4, 0⟩, .destroy 100] = some s ∧
      s.memory.contents 200
        = some [some ⟨.memoryLocation, 10, 1, 0⟩, some ⟨.memoryLocation, 20, 4, 0⟩] := by
  have hrun : (((listRun ⟨32, 64, by decide⟩).restrict (CallOk ⟨32, 64, by decide⟩)).run {}
      [.construct 100 2 500, .write 100 0 ⟨.memoryLocation, 10, 1, 0⟩, .copyConstruct 200 100 600,
        .write 200 1 ⟨.memoryLocation, 20, 4, 0⟩, .destroy 100]).map
      (fun s => (s.values 200, s.memory.exited, s.memory.undefined))
      = some (some [some ⟨.memoryLocation, 10, 1, 0⟩, some ⟨.memoryLocation, 20, 4, 0⟩],
          false, false) := by decide
  obtain ⟨s, hs, he⟩ := Option.map_eq_some_iff.mp hrun
  obtain ⟨hv, hexited, hundefined⟩ := by simpa using he
  have hr := Machine.Runs.of_restrict hs
  exact ⟨s, hr.run_eq, ((lists_are_values hr).2 hundefined hexited).2 200 _ hv⟩

/-- an assignment to itself -/
example : ((listRun ⟨32, 64, by decide⟩).run {}
    [.construct 100 1 500, .assign 100 100 600]).map (fun s => s.memory.undefined) = some true := by
  decide

end
end RealTimeTransfer

import LedServer.Machine
import LedServer.BoundedFifo
import LedServer.AvrRingContents

set_option autoImplicit false

/-!
# The ring against the bounded queue

The same calls are made on the ring and on a bounded first-in first-out queue
of its capacity, and the reports are compared: whether a fill was accepted,
what a drain returned, and the size and the space after each call.
-/
namespace LedServer.AvrRing
open Machine

inductive RingOp where
  | byteFill (byte : Byte)
  | byteDrain
  | arrayFill (array : List Byte) (fits : array.length < 256)
  | arrayDrain (arraySize : Byte)
  | clear

structure RingReport where
  done : Bool
  drained : List Byte
  size : ℕ
  space : ℕ
deriving DecidableEq

section Runs

variable {size : Byte}

def ringReport (r : Ring size) (done : Bool) (drained : List Byte) : Ring size × RingReport :=
  (r, ⟨done, drained, (ringSize size r.start r.finish).toNat,
    (ringSpace size r.start r.finish).toNat⟩)

def ringCall (r : Ring size) : RingOp → Ring size × RingReport
  | .byteFill byte => ringReport (ringByteFill r byte).1 (ringByteFill r byte).2 []
  | .byteDrain =>
    ringReport (ringByteDrain r).1 (ringByteDrain r).2.isSome (ringByteDrain r).2.toList
  | .arrayFill array _ =>
    let n := BitVec.ofNat 8 array.length
    ringReport (ringArrayFill r array n).1 (ringArrayFill r array n).2 []
  | .arrayDrain n =>
    let destination := List.replicate n.toNat (0 : Byte)
    let result := ringArrayDrain r destination n
    ringReport result.1 result.2.2 (if result.2.2 then result.2.1 else [])
  | .clear => ringReport (ringClear r) true []

def fifoReport {capacity : ℕ} (q : BoundedFifo Byte capacity) (done : Bool)
    (drained : List Byte) : BoundedFifo Byte capacity × RingReport :=
  (q, ⟨done, drained, q.size, q.space⟩)

def fifoCall {capacity : ℕ} (q : BoundedFifo Byte capacity) :
    RingOp → BoundedFifo Byte capacity × RingReport
  | .byteFill byte => fifoReport (q.fill [byte]).1 (q.fill [byte]).2 []
  | .byteDrain => fifoReport (q.drain 1).1 (q.drain 1).2.isSome ((q.drain 1).2.getD [])
  | .arrayFill array _ => fifoReport (q.fill array).1 (q.fill array).2 []
  | .arrayDrain n =>
    fifoReport (q.drain n.toNat).1 (q.drain n.toNat).2.isSome ((q.drain n.toNat).2.getD [])
  | .clear => fifoReport .empty true []

def RingOp.bytes : RingOp → List Byte
  | .byteFill byte => [byte]
  | .arrayFill array _ => array
  | _ => []

/-- The call brings bytes that leave no cell free while `start` is positive, so
that `finish` comes round to `start`. -/
def FillsBehindStart (r : Ring size) (op : RingOp) : Prop :=
  0 < r.start.toNat ∧ op.bytes ≠ [] ∧ r.contents.length + op.bytes.length = size.toNat

instance (r : Ring size) (op : RingOp) : Decidable (FillsBehindStart r op) :=
  inferInstanceAs (Decidable (_ ∧ _ ∧ _))

def Mirrors (r : Ring size) (q : BoundedFifo Byte size.toNat) : Prop :=
  r.Valid ∧ r.contents = q.items

theorem ringReport_eq {r : Ring size} {q : BoundedFifo Byte size.toNat} (h : Mirrors r q)
    (done : Bool) (drained : List Byte) :
    (ringReport r done drained).2 = (fifoReport q done drained).2 := by
  obtain ⟨hv, hq⟩ := h
  have hc : r.count = q.items.length := by rw [← contents_length, hq]
  have hs : (ringSize size r.start r.finish).toNat = q.items.length := hc
  simp only [ringReport, fifoReport, BoundedFifo.size, BoundedFifo.space, hs,
    ringSpace_toNat hv, hc]

theorem fill_mirrors {r : Ring size} {q : BoundedFifo Byte size.toNat} (h : Mirrors r q)
    (bytes : List Byte) (room : r.count + bytes.length ≤ size.toNat)
    (safe : ¬ (0 < r.start.toNat ∧ bytes ≠ [] ∧ r.count + bytes.length = size.toNat)) :
    Mirrors (fillAll r bytes) (q.fill bytes).1 ∧ (q.fill bytes).2 = true := by
  obtain ⟨hv, hq⟩ := h
  have hfit : q.items.length + bytes.length ≤ size.toNat := by
    rwa [← hq, contents_length]
  refine ⟨⟨fillAll_valid hv bytes, ?_⟩, by simp [BoundedFifo.fill, hfit]⟩
  rw [BoundedFifo.fill_items hfit, fillAll_contents hv bytes room safe, hq]

theorem byteFill_all {r : Ring size} (h : r.Valid) (b : Byte) :
    ringByteFill r b = if r.count + 1 ≤ size.toNat then (fillAll r [b], true) else (r, false) := by
  split_ifs with room
  · have hr : (ringByteFill r b).2 = true := by rw [byteFill_eq h room]
    rw [← hr]
    rfl
  · exact byteFill_full h (by omega) b

/-- Both fills of the interface at once: `bytes` accepted, or refused whole. -/
theorem fill_agree {r : Ring size} {q : BoundedFifo Byte size.toNat} (h : Mirrors r q)
    (bytes : List Byte)
    (safe : ¬ (0 < r.start.toNat ∧ bytes ≠ [] ∧ r.count + bytes.length = size.toNat)) :
    let filled := if r.count + bytes.length ≤ size.toNat then (fillAll r bytes, true)
      else (r, false)
    (ringReport filled.1 filled.2 []).2 = (fifoReport (q.fill bytes).1 (q.fill bytes).2 []).2 ∧
      Mirrors filled.1 (q.fill bytes).1 := by
  have hq := h.2
  dsimp only
  split_ifs with room
  · obtain ⟨hm, hdone⟩ := fill_mirrors h bytes room safe
    rw [hdone]
    exact ⟨ringReport_eq hm true [], hm⟩
  · have hfit : ¬ q.items.length + bytes.length ≤ size.toNat := by
      rwa [← hq, contents_length]
    rw [BoundedFifo.fill_refused hfit]
    exact ⟨ringReport_eq h false [], h⟩

theorem byteDrain_agree {r : Ring size} {q : BoundedFifo Byte size.toNat} (h : Mirrors r q) :
    (ringCall r .byteDrain).2 = (fifoCall q .byteDrain).2 ∧
      Mirrors (ringCall r .byteDrain).1 (fifoCall q .byteDrain).1 := by
  have hv := h.1
  have hq := h.2
  unfold ringCall fifoCall
  cases hc : r.contents with
  | nil =>
    have hfew : ¬ 1 ≤ q.items.length := by rw [← hq, hc]; simp
    rw [byteDrain_empty hc, BoundedFifo.drain_refused hfew]
    exact ⟨ringReport_eq h false [], h⟩
  | cons b rest =>
    obtain ⟨hb, hr⟩ := byteDrain_cons hv hc
    have hitems : q.items = b :: rest := by rw [← hq, hc]
    have hone : 1 ≤ q.items.length := by rw [hitems]; simp
    have hm : Mirrors (ringByteDrain r).1 (q.drain 1).1 := by
      refine ⟨byteDrain_valid hv, ?_⟩
      rw [hr, BoundedFifo.drain_items hone, hitems]
      rfl
    have hout : (q.drain 1).2 = some [b] := by simp [BoundedFifo.drain, hitems]
    rw [hb, hout]
    exact ⟨ringReport_eq hm true [b], hm⟩

theorem arrayDrain_agree {r : Ring size} {q : BoundedFifo Byte size.toNat} (h : Mirrors r q)
    (n : Byte) :
    (ringCall r (.arrayDrain n)).2 = (fifoCall q (.arrayDrain n)).2 ∧
      Mirrors (ringCall r (.arrayDrain n)).1 (fifoCall q (.arrayDrain n)).1 := by
  have hv := h.1
  have hq := h.2
  have hcount : r.count = q.items.length := by rw [← contents_length, hq]
  unfold ringCall fifoCall
  by_cases held : n.toNat ≤ r.count
  · obtain ⟨h1, h2, h3⟩ := drainLoop_eq hv (List.replicate n.toNat (0 : Byte)) 0 n.toNat held
    have hlen : (r.contents.take n.toNat).length = n.toNat := by
      rw [List.length_take, contents_length]; omega
    have harray : storeFrom (List.replicate n.toNat (0 : Byte)) 0 (r.contents.take n.toNat) =
        q.items.take n.toNat := by
      rw [storeFrom_eq _ _ _ (by rw [hlen]; simp), hlen, hq]
      simp
    have hm : Mirrors (ringDrainLoop r (List.replicate n.toNat 0) 0 n.toNat).1
        (q.drain n.toNat).1 := by
      refine ⟨h1, ?_⟩
      rw [h2, BoundedFifo.drain_items (by omega), hq]
    have hout : (q.drain n.toNat).2 = some (q.items.take n.toNat) := by
      simp [BoundedFifo.drain, hcount ▸ held]
    simp only [arrayDrain_eq _ n held, h3, harray, hout, ↓reduceIte, Option.isSome_some,
      Option.getD_some]
    exact ⟨ringReport_eq hm true _, hm⟩
  · have hfew : ¬ n.toNat ≤ q.items.length := by omega
    simp only [BoundedFifo.drain_refused hfew]
    simp only [arrayDrain_short _ n held, Bool.false_eq_true, ↓reduceIte, Option.isSome_none,
      Option.getD_none]
    exact ⟨ringReport_eq h false [], h⟩

theorem call_agree {r : Ring size} {q : BoundedFifo Byte size.toNat} (hsize : 1 ≤ size)
    (h : Mirrors r q) (op : RingOp) (safe : ¬ FillsBehindStart r op) :
    (ringCall r op).2 = (fifoCall q op).2 ∧ Mirrors (ringCall r op).1 (fifoCall q op).1 := by
  unfold FillsBehindStart at safe
  rw [contents_length] at safe
  cases op with
  | byteFill b =>
    have := fill_agree h [b] safe
    simp only [ringCall, fifoCall, byteFill_all h.1 b]
    exact this
  | byteDrain => exact byteDrain_agree h
  | arrayFill bytes fits =>
    have := fill_agree h bytes safe
    simp only [ringCall, fifoCall, arrayFill_eq h.1 bytes fits]
    exact this
  | arrayDrain n => exact arrayDrain_agree h n
  | clear =>
    have hm : Mirrors (ringClear r) (.empty : BoundedFifo Byte size.toNat) :=
      ⟨ringClear_valid r hsize, ringClear_contents r⟩
    exact ⟨ringReport_eq hm true [], hm⟩

/-- The fill that meets `start`: the queue is full, the ring reports it holds
nothing. -/
theorem call_differ {r : Ring size} {q : BoundedFifo Byte size.toNat}
    (h : Mirrors r q) (op : RingOp) (behind : FillsBehindStart r op) :
    (ringCall r op).2 ≠ (fifoCall q op).2 := by
  obtain ⟨hstart, hne, hfull⟩ := behind
  obtain ⟨hv, hq⟩ := h
  rw [contents_length] at hfull
  have hcount : r.count = q.items.length := by rw [← contents_length, hq]
  have hpos : 0 < size.toNat := by have := hv.start_lt; bv_omega
  have hlost : (fillAll r op.bytes).count = 0 := by
    rw [← contents_length, fillAll_lost hv op.bytes hstart hne hfull]
    rfl
  have hfit : q.items.length + op.bytes.length ≤ size.toNat := by omega
  have hfifo : (q.fill op.bytes).1.size = size.toNat := by
    unfold BoundedFifo.size
    rw [BoundedFifo.fill_items hfit, List.length_append]
    omega
  have hring : (ringCall r op).2.size = (fillAll r op.bytes).count ∧
      (fifoCall q op).2.size = (q.fill op.bytes).1.size := by
    cases op with
    | byteFill b =>
      refine ⟨?_, rfl⟩
      have room : r.count + 1 ≤ size.toNat := hfull.le
      simp only [ringCall, byteFill_all hv b, if_pos room]
      rfl
    | arrayFill bytes fits =>
      refine ⟨?_, rfl⟩
      have room : r.count + bytes.length ≤ size.toNat := hfull.le
      simp only [ringCall, arrayFill_eq hv bytes fits, if_pos room]
      rfl
    | byteDrain | arrayDrain n | clear => exact absurd rfl hne
  intro heq
  have hsize := congrArg RingReport.size heq
  rw [hring.1, hring.2, hlost, hfifo] at hsize
  omega

end Runs

/-- A run reports what the bounded queue reports exactly when no call of it
fills the ring behind a positive `start`. -/
theorem ring_run_eq_fifo_iff (size : Byte) (hsize : 1 ≤ size) (ops : List RingOp) :
    observe ringCall (ringInit size) ops =
        observe fifoCall (.empty : BoundedFifo Byte size.toNat) ops ↔
      Along (fun r op => (ringCall r op).1) (fun r op => ¬ FillsBehindStart r op)
        (ringInit size) ops := by
  have hstart : Mirrors (ringInit size) (.empty : BoundedFifo Byte size.toNat) :=
    ⟨ringInit_valid hsize, ringInit_contents size⟩
  have agree : ∀ (r : Ring size) (q : BoundedFifo Byte size.toNat) (op : RingOp), Mirrors r q →
      ¬ FillsBehindStart r op →
      (ringCall r op).2 = (fifoCall q op).2 ∧ Mirrors (ringCall r op).1 (fifoCall q op).1 :=
    fun r q op h safe => call_agree hsize h op safe
  have differ : ∀ (r : Ring size) (q : BoundedFifo Byte size.toNat) (op : RingOp), Mirrors r q →
      ¬ ¬ FillsBehindStart r op → (ringCall r op).2 ≠ (fifoCall q op).2 :=
    fun r q op h behind => call_differ h op (not_not.mp behind)
  exact observe_eq_iff agree differ ops hstart

theorem ring_run_eq_fifo_of_three :
    observe ringCall (ringInit 3) [.byteFill 7, .arrayFill [8, 9] (by decide), .arrayDrain 3] =
      observe fifoCall (.empty : BoundedFifo Byte 3)
        [.byteFill 7, .arrayFill [8, 9] (by decide), .arrayDrain 3] :=
  (ring_run_eq_fifo_iff 3 (by decide) _).mpr (by decide)

/-- Three bytes in, one out, one in: the ring of three is full and says it is
empty. -/
theorem ring_run_ne_fifo :
    observe ringCall (ringInit 3)
        [.arrayFill [1, 2, 3] (by decide), .byteDrain, .byteFill 4, .byteDrain] ≠
      observe fifoCall (.empty : BoundedFifo Byte 3)
        [.arrayFill [1, 2, 3] (by decide), .byteDrain, .byteFill 4, .byteDrain] := by
  decide

end LedServer.AvrRing

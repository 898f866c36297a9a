import LedServer.Machine
import LedServer.AvrBuffer
import LedServer.AvrDecode

set_option autoImplicit false

/-!
# `INT3_vect` between the statements of an `encode_msg_k` call

The frame is built byte by byte in `out_buf`, and so is the one of the handler.
-/
namespace LedServer.Avr
open AvrRing Machine

/-- A call of one of the eight encoders with its arguments. -/
inductive EncodeCall where
  | msg0 (msgId serialId : Byte)
  | msg1 (msgId serialId payload1 : Byte)
  | msg2 (msgId serialId payload1 payload2 : Byte)
  | msg3 (msgId serialId payload1 payload2 payload3 : Byte)
  | msg4 (msgId serialId payload1 payload2 payload3 payload4 : Byte)
  | msg5 (msgId serialId payload1 payload2 payload3 payload4 payload5 : Byte)
  | msg6 (msgId serialId payload1 payload2 payload3 payload4 payload5 payload6 : Byte)
  | msg8 (msgId serialId payload1 payload2 payload3 payload4 payload5 payload6 payload7
      payload8 : Byte)
deriving DecidableEq

namespace EncodeCall

def serialId : EncodeCall → Byte
  | msg0 _ s | msg1 _ s _ | msg2 _ s _ _ | msg3 _ s _ _ _ | msg4 _ s _ _ _ _ => s
  | msg5 _ s _ _ _ _ _ | msg6 _ s _ _ _ _ _ _ | msg8 _ s _ _ _ _ _ _ _ _ => s

def msgId : EncodeCall → Byte
  | msg0 m _ | msg1 m _ _ | msg2 m _ _ _ | msg3 m _ _ _ _ | msg4 m _ _ _ _ _ => m
  | msg5 m _ _ _ _ _ _ | msg6 m _ _ _ _ _ _ _ | msg8 m _ _ _ _ _ _ _ _ _ => m

def payload : EncodeCall → List Byte
  | msg0 _ _ => []
  | msg1 _ _ a => [a]
  | msg2 _ _ a b => [a, b]
  | msg3 _ _ a b c => [a, b, c]
  | msg4 _ _ a b c d => [a, b, c, d]
  | msg5 _ _ a b c d e => [a, b, c, d, e]
  | msg6 _ _ a b c d e f => [a, b, c, d, e, f]
  | msg8 _ _ a b c d e f g h => [a, b, c, d, e, f, g, h]

/-- The size the encoder passes to `encode_msg`. -/
def size : EncodeCall → Byte
  | msg0 .. => 2
  | msg1 .. => 3
  | msg2 .. => 4
  | msg3 .. => 5
  | msg4 .. => 6
  | msg5 .. => 7
  | msg6 .. => 8
  | msg8 .. => 10

/-- What the call stores into `out_buf`, from the first cell on. -/
def frame (c : EncodeCall) : List Byte := encodeMsg c.msgId c.serialId c.size c.payload

theorem size_toNat (c : EncodeCall) : c.size.toNat = c.payload.length + 2 := by
  cases c <;> rfl

theorem frame_length (c : EncodeCall) : c.frame.length = c.size.toNat + 2 := by
  rw [size_toNat]
  simp only [frame, encodeMsg, List.length_append, List.length_cons, List.length_nil]
  omega

theorem payload_length_le (c : EncodeCall) : c.payload.length ≤ 8 := by
  cases c <;> simp [payload]

theorem frame_length_le (c : EncodeCall) : c.frame.length ≤ 12 := by
  have := c.payload_length_le
  rw [frame_length, size_toNat]
  omega

end EncodeCall

/-- The encoder at once. -/
def encode (l : Link) : EncodeCall → Link
  | .msg0 m s => encodeMsg0 l m s
  | .msg1 m s a => encodeMsg1 l m s a
  | .msg2 m s a b => encodeMsg2 l m s a b
  | .msg3 m s a b c => encodeMsg3 l m s a b c
  | .msg4 m s a b c d => encodeMsg4 l m s a b c d
  | .msg5 m s a b c d e => encodeMsg5 l m s a b c d e
  | .msg6 m s a b c d e f => encodeMsg6 l m s a b c d e f
  | .msg8 m s a b c d e f g h => encodeMsg8 l m s a b c d e f g h

theorem encode_eq (l : Link) (c : EncodeCall) :
    encode l c = postponeMessage l c.frame c.serialId := by
  cases c <;> rfl

/-- `out_buf` of `encode.c`. -/
structure OutBuf where
  data : List Byte
  data_length : data.length = outSize

def OutBuf.store (b : OutBuf) (i : ℕ) (byte : Byte) : OutBuf where
  data := b.data.set i byte
  data_length := by rw [List.length_set, b.data_length]

/-- The stores of a whole call. -/
def OutBuf.storeFrame (b : OutBuf) (frame : List Byte) : OutBuf where
  data := storeFrom b.data 0 frame
  data_length := by rw [storeFrom_length, b.data_length]

def outBufPower : OutBuf where
  data := List.replicate outSize 0
  data_length := List.length_replicate

/-- The link, the shared buffer, the call of the main loop under way with the
count of bytes it has stored, and the calls made so far. -/
structure EncodeCpu where
  link : Link
  outBuf : OutBuf
  pending : Option (EncodeCall × ℕ)
  calls : List EncodeCall

def versionCall : EncodeCall := .msg1 msgIdVersion serialIdToIgnore protocolVersion

/-- The next statement of the call: a byte is stored, or all of them are handed
to `postpone_message`, which is one atomic block. -/
def encodeStep (t : EncodeCpu) : EncodeCpu :=
  match t.pending with
  | none => t
  | some (c, i) =>
    match c.frame[i]? with
    | some byte => { t with outBuf := t.outBuf.store i byte, pending := some (c, i + 1) }
    | none =>
      { t with
        link := postponeMessage t.link (t.outBuf.data.take i) c.serialId
        pending := none }

/-- `ISR (INT3_vect)`, the link and `out_buf`. -/
def int3Encode (t : EncodeCpu) : EncodeCpu :=
  let link := { t.link with
    readBuf := bufferClear t.link.readBuf
    writeBuf := bufferClear t.link.writeBuf
    confirm := true }
  let outBuf := t.outBuf.storeFrame versionCall.frame
  { t with
    link := postponeMessage link (outBuf.data.take versionCall.frame.length) versionCall.serialId
    outBuf := outBuf
    calls := t.calls ++ [versionCall] }

inductive EncodeEvent where
  | call (c : EncodeCall)
  | statement
  | int3
  | exchange (received : Byte)
  | read
  | postponeTry (shiftSpace : Byte)
deriving DecidableEq

/-- What the main loop does when no call is under way. -/
def uncalled (t : EncodeCpu) (f : EncodeCpu → EncodeCpu) : EncodeCpu :=
  if t.pending = none then f t else t

def encodeEventStep (t : EncodeCpu) : EncodeEvent → EncodeCpu
  | .call c => uncalled t fun t => { t with pending := some (c, 0), calls := t.calls ++ [c] }
  | .statement => encodeStep t
  | .int3 => int3Encode t
  | .exchange received => { t with link := spiStcVect t.link received }
  | .read => uncalled t fun t => { t with link := (spiReadSymbol t.link).1 }
  | .postponeTry shiftSpace => uncalled t fun t => { t with link := postponeTry t.link shiftSpace }

def encodePower : EncodeCpu where
  link := linkInit
  outBuf := outBufPower
  pending := none
  calls := []

/-! ### `out_buf` -/

theorem OutBuf.storeFrame_take (b : OutBuf) {frame : List Byte} (h : frame.length ≤ outSize) :
    (b.storeFrame frame).data = frame ++ b.data.drop frame.length := by
  have hfits : 0 + frame.length ≤ b.data.length := by
    rw [b.data_length]
    omega
  change storeFrom b.data 0 frame = _
  rw [storeFrom_eq _ _ _ hfits, List.take_zero, List.nil_append, Nat.zero_add]

/-- The handler hands over its own frame, whatever `out_buf` held. -/
theorem int3Encode_handed (t : EncodeCpu) :
    (t.outBuf.storeFrame versionCall.frame).data.take versionCall.frame.length =
      versionCall.frame := by
  rw [OutBuf.storeFrame_take _ (by decide)]
  exact List.take_left

theorem int3Encode_link (s : State) (t : EncodeCpu) (h : t.link = s.link) :
    (int3Encode t).link = (int3Vect s).link := by
  unfold int3Encode int3Vect
  dsimp only
  rw [int3Encode_handed, h]
  rfl

/-- `out_buf` holds what the call has stored. -/
def Builds (t : EncodeCpu) (c : EncodeCall) (i : ℕ) : Prop :=
  i ≤ c.frame.length ∧ t.outBuf.data.take i = c.frame.take i

/-- A statement of a call whose bytes are in `out_buf`: the next byte joins
them, or the frame is handed over. -/
theorem encodeStep_cases {t : EncodeCpu} {c : EncodeCall} {i : ℕ} (hp : t.pending = some (c, i))
    (h : Builds t c i) :
    (i < c.frame.length ∧ (encodeStep t).pending = some (c, i + 1) ∧
        (encodeStep t).link = t.link ∧ (encodeStep t).calls = t.calls ∧
        Builds (encodeStep t) c (i + 1)) ∨
      (i = c.frame.length ∧ encodeStep t = { t with
        link := postponeMessage t.link c.frame c.serialId
        pending := none }) := by
  obtain ⟨hle, htake⟩ := h
  rcases Nat.lt_or_ge i c.frame.length with hlt | hge
  · have hbyte : c.frame[i]? = some c.frame[i] := List.getElem?_eq_getElem hlt
    have hstep : encodeStep t =
        { t with outBuf := t.outBuf.store i c.frame[i], pending := some (c, i + 1) } := by
      unfold encodeStep
      simp only [hp, hbyte]
    rw [hstep]
    refine .inl ⟨hlt, rfl, rfl, rfl, hlt, ?_⟩
    have hdata : i < t.outBuf.data.length := by
      have hsize : t.outBuf.data.length = 15 := t.outBuf.data_length
      have := c.frame_length_le
      omega
    change (t.outBuf.data.set i c.frame[i]).take (i + 1) = _
    rw [List.take_add_one, List.take_set_of_le (le_refl i), List.getElem?_set_self hdata, htake,
      List.take_add_one, hbyte]
  · have hend : i = c.frame.length := Nat.le_antisymm hle hge
    have hstep : encodeStep t = { t with
        link := postponeMessage t.link (t.outBuf.data.take i) c.serialId
        pending := none } := by
      unfold encodeStep
      simp only [hp, List.getElem?_eq_none hge]
    refine .inr ⟨hend, ?_⟩
    rw [hstep, htake, hend, List.take_length]

/-- The statements a call has left, without an interrupt. -/
theorem encode_finish {t : EncodeCpu} {c : EncodeCall} {i : ℕ} (hp : t.pending = some (c, i))
    (h : Builds t c i) :
    (run encodeEventStep t (List.replicate (c.frame.length - i + 1) .statement)).link =
      postponeMessage t.link c.frame c.serialId := by
  induction hn : c.frame.length - i generalizing t i with
  | zero =>
    rcases encodeStep_cases hp h with ⟨hlt, -⟩ | ⟨-, hstep⟩
    · omega
    · have hevent : encodeEventStep t .statement = encodeStep t := rfl
      rw [List.replicate_one, run_cons, run_nil, hevent, hstep]
  | succ n ih =>
    rcases encodeStep_cases hp h with ⟨hlt, hp', hlink, -, h'⟩ | ⟨hend, -⟩
    · rw [List.replicate_succ, run_cons]
      have htail := ih hp' h' (by omega)
      rw [hlink] at htail
      exact htail
    · omega

/-- Without an interrupt a call is `encode` at once. -/
theorem encode_uninterrupted (t : EncodeCpu) (h : t.pending = none) (c : EncodeCall) :
    (run encodeEventStep t (.call c :: List.replicate (c.frame.length + 1) .statement)).link =
      encode t.link c := by
  have hcall : encodeEventStep t (.call c) =
      { t with pending := some (c, 0), calls := t.calls ++ [c] } := by
    exact if_pos h
  rw [run_cons, hcall, encode_eq]
  exact encode_finish rfl ⟨Nat.zero_le _, rfl⟩

/-! ### The handler in the middle of a call -/

/-- The bytes stored so far are those the handler stores over them. -/
def Harmless (t : EncodeCpu) : EncodeEvent → Prop
  | .int3 => ∀ c i, t.pending = some (c, i) →
      (c.frame.take i).take versionCall.frame.length = versionCall.frame.take i
  | _ => True

instance (t : EncodeCpu) (e : EncodeEvent) : Decidable (Harmless t e) := by
  cases e with
  | int3 =>
    match h : t.pending with
    | none => exact .isTrue fun c i hp => absurd (h.symm.trans hp) (by simp)
    | some (c, i) =>
      refine decidable_of_iff
        ((c.frame.take i).take versionCall.frame.length = versionCall.frame.take i) ⟨?_, ?_⟩
      · intro hsame c' i' hp
        obtain ⟨rfl, rfl⟩ := Prod.mk.inj (Option.some.inj (h.symm.trans hp))
        exact hsame
      · intro hall
        exact hall c i h
  | _ => exact .isTrue trivial

/-- Nothing but the eye catch has been stored: the handler is harmless. -/
theorem harmless_of_le_one {t : EncodeCpu} (h : ∀ c i, t.pending = some (c, i) → i ≤ 1) :
    Harmless t .int3 := by
  intro c i hp
  have hi := h c i hp
  interval_cases i <;> rfl

theorem builds_int3_iff {t : EncodeCpu} {c : EncodeCall} {i : ℕ} (hp : t.pending = some (c, i))
    (h : Builds t c i) : Builds (int3Encode t) c i ↔ Harmless t .int3 := by
  obtain ⟨hle, htake⟩ := h
  have hdata : (int3Encode t).outBuf.data.take i =
      versionCall.frame.take i ++ (c.frame.take i).drop versionCall.frame.length := by
    change (t.outBuf.storeFrame versionCall.frame).data.take i = _
    rw [OutBuf.storeFrame_take _ (by decide), List.take_append, ← htake, List.drop_take]
  have hsplit : c.frame.take i = (c.frame.take i).take versionCall.frame.length ++
      (c.frame.take i).drop versionCall.frame.length := (List.take_append_drop _ _).symm
  have hharmless : Harmless t .int3 ↔
      (c.frame.take i).take versionCall.frame.length = versionCall.frame.take i := by
    constructor
    · intro hall
      exact hall c i hp
    · intro hsame c' i' hp'
      obtain ⟨rfl, rfl⟩ := Prod.mk.inj (Option.some.inj (hp.symm.trans hp'))
      exact hsame
  rw [hharmless]
  constructor
  · rintro ⟨-, hbuilt⟩
    exact (List.append_cancel_right ((hdata.symm.trans hbuilt).trans hsplit)).symm
  · intro hsame
    refine ⟨hle, ?_⟩
    rw [hdata, ← hsame]
    exact List.take_append_drop _ _

/-- A byte that is wrong stays wrong until the frame is handed over. -/
theorem encode_spoilt {t : EncodeCpu} {c : EncodeCall} {i j : ℕ} (hp : t.pending = some (c, j))
    (hij : i ≤ j) (hle : j ≤ c.frame.length) (h : t.outBuf.data.take i ≠ c.frame.take i) :
    ∃ msg, msg ≠ c.frame ∧
      (run encodeEventStep t (List.replicate (c.frame.length - j + 1) .statement)).link =
        postponeMessage t.link msg c.serialId := by
  induction hn : c.frame.length - j generalizing t j with
  | zero =>
    have hnone : c.frame[j]? = none := List.getElem?_eq_none (by omega)
    have hstep : encodeEventStep t .statement = { t with
        link := postponeMessage t.link (t.outBuf.data.take j) c.serialId
        pending := none } := by
      change encodeStep t = _
      unfold encodeStep
      simp only [hp, hnone]
    rw [List.replicate_one, run_cons, run_nil, hstep]
    refine ⟨_, fun hsame => h ?_, rfl⟩
    rw [← hsame, List.take_take, Nat.min_eq_left hij]
  | succ n ih =>
    have hlt : j < c.frame.length := by omega
    have hbyte : c.frame[j]? = some c.frame[j] := List.getElem?_eq_getElem hlt
    have hstep : encodeEventStep t .statement =
        { t with outBuf := t.outBuf.store j c.frame[j], pending := some (c, j + 1) } := by
      change encodeStep t = _
      unfold encodeStep
      simp only [hp, hbyte]
    rw [List.replicate_succ, run_cons, hstep]
    have hkeep : (t.outBuf.data.set j c.frame[j]).take i ≠ c.frame.take i := by
      rw [List.take_set_of_le hij]
      exact h
    obtain ⟨msg, hmsg, hlink⟩ := ih (t := { t with
      outBuf := t.outBuf.store j c.frame[j], pending := some (c, j + 1) }) rfl (by omega) hlt hkeep
      (by omega)
    exact ⟨msg, hmsg, hlink⟩

theorem postponeMessage_created (l : Link) (msg : List Byte) (serialId : Byte) :
    (postponeMessage l msg serialId).created = l.created ++ [msg] := by
  unfold postponeMessage
  dsimp only
  split_ifs <;> rfl

/-- The frame a preempted call hands over is its own exactly when the handler
was harmless. -/
theorem encode_preempted {t : EncodeCpu} {c : EncodeCall} {i : ℕ} (hp : t.pending = some (c, i))
    (h : Builds t c i) :
    (run encodeEventStep t
        (.int3 :: List.replicate (c.frame.length - i + 1) .statement)).link.created =
      t.link.created ++ [versionCall.frame, c.frame] ↔ Harmless t .int3 := by
  have hcreated : (int3Encode t).link.created = t.link.created ++ [versionCall.frame] := by
    unfold int3Encode
    dsimp only
    rw [postponeMessage_created, int3Encode_handed]
  have hsplit : t.link.created ++ [versionCall.frame, c.frame] =
      (int3Encode t).link.created ++ [c.frame] := by
    rw [hcreated, List.append_assoc]
    rfl
  have hevent : encodeEventStep t .int3 = int3Encode t := rfl
  rw [run_cons, hevent, hsplit, ← builds_int3_iff hp h]
  constructor
  · intro hhanded
    refine ⟨h.1, ?_⟩
    by_contra hne
    obtain ⟨msg, hmsg, hlink⟩ := encode_spoilt (t := int3Encode t) hp (le_refl i) h.1 hne
    rw [hlink, postponeMessage_created] at hhanded
    exact hmsg (List.cons.inj (List.append_cancel_left hhanded)).1
  · intro hbuilt
    rw [encode_finish (t := int3Encode t) hp hbuilt, postponeMessage_created]

/-! ### All runs -/

/-- `frame` is that of one of the calls, whole. -/
def OfCall (calls : List EncodeCall) (frame : List Byte) : Prop :=
  ∃ c ∈ calls, frame = [eyeCatch, c.size, c.serialId, c.msgId] ++ c.payload ∧
    frame.length = c.size.toNat + 2

/-- The frames put into `write_buf` so far and the one in the slot. -/
def PlacedIn (calls : List EncodeCall) (l : Link) : Prop :=
  (∀ frame ∈ l.written, OfCall calls frame) ∧
    (l.postponedSize ≠ 0 → OfCall calls (l.postponedMessage.take l.postponedSize.toNat))

def Placed (t : EncodeCpu) : Prop := PlacedIn t.calls t.link

theorem ofCall_frame {calls : List EncodeCall} {c : EncodeCall} (h : c ∈ calls) :
    OfCall calls c.frame :=
  ⟨c, h, rfl, c.frame_length⟩

theorem OfCall.more {calls : List EncodeCall} {frame : List Byte} (h : OfCall calls frame)
    (c : EncodeCall) : OfCall (calls ++ [c]) frame := by
  obtain ⟨d, hd, hshape⟩ := h
  exact ⟨d, List.mem_append_left _ hd, hshape⟩

theorem PlacedIn.more {calls : List EncodeCall} {l : Link} (h : PlacedIn calls l)
    (c : EncodeCall) : PlacedIn (calls ++ [c]) l :=
  ⟨fun frame hf => (h.1 frame hf).more c, fun hne => (h.2 hne).more c⟩

theorem PlacedIn.write {calls : List EncodeCall} {l : Link} (h : PlacedIn calls l)
    {array : List Byte} {n : Byte} (hf : OfCall calls (array.take n.toNat)) :
    PlacedIn calls (spiWriteArray l array n) := by
  refine ⟨fun frame hframe => ?_, h.2⟩
  rcases List.mem_append.mp hframe with hold | hnew
  · exact h.1 frame hold
  · split_ifs at hnew
    · rw [List.mem_singleton.mp hnew]
      exact hf
    · exact absurd hnew (by simp)

theorem PlacedIn.postpone {calls : List EncodeCall} {l : Link} (h : PlacedIn calls l)
    {c : EncodeCall} (hc : c ∈ calls) (serialId : Byte) :
    PlacedIn calls (postponeMessage l c.frame serialId) := by
  have hlen : (BitVec.ofNat 8 c.frame.length).toNat = c.frame.length := by
    have := c.frame_length_le
    rw [BitVec.toNat_ofNat]
    omega
  have hframe := ofCall_frame hc
  have hmade : PlacedIn calls { l with created := l.created ++ [c.frame] } := h
  unfold postponeMessage
  dsimp only
  split_ifs
  · refine hmade.write ?_
    rw [hlen, List.take_length]
    exact hframe
  · exact hmade
  · exact h
  · refine ⟨h.1, fun _ => ?_⟩
    dsimp only
    rw [hlen, List.take_left]
    exact hframe

theorem PlacedIn.flush {calls : List EncodeCall} {l : Link} (h : PlacedIn calls l)
    (shiftSpace : Byte) : PlacedIn calls (postponeTry l shiftSpace) := by
  unfold postponeTry
  split_ifs with hno
  · exact h
  · have hsize : l.postponedSize ≠ 0 := fun hz => hno (.inl hz)
    have hwrite := h.write (h.2 hsize)
    exact ⟨hwrite.1, fun hne => absurd rfl hne⟩

theorem spiStcVect_frames (l : Link) (b : Byte) : (spiStcVect l b).written = l.written ∧
    (spiStcVect l b).postponedSize = l.postponedSize ∧
    (spiStcVect l b).postponedMessage = l.postponedMessage := by
  unfold spiStcVect
  rcases bufferByteFill l.readBuf b with ⟨buf, _ | _⟩
  · exact ⟨rfl, rfl, rfl⟩
  · dsimp only
    rcases bufferByteDrain l.writeBuf with ⟨out, _ | toSend⟩ <;> exact ⟨rfl, rfl, rfl⟩

/-- Every call under way has been made and is being built. -/
structure EncodeSound (t : EncodeCpu) : Prop where
  placed : Placed t
  builds : ∀ c i, t.pending = some (c, i) → c ∈ t.calls ∧ Builds t c i

theorem EncodeSound.link {t : EncodeCpu} (h : EncodeSound t) {l : Link}
    (hl : PlacedIn t.calls l) : EncodeSound { t with link := l } := ⟨hl, h.builds⟩

theorem encodeEventStep_sound (t : EncodeCpu) (e : EncodeEvent) (h : EncodeSound t)
    (hc : Harmless t e) : EncodeSound (encodeEventStep t e) := by
  have huncalled : ∀ f : EncodeCpu → EncodeCpu, EncodeSound (f t) → EncodeSound (uncalled t f) := by
    intro f hf
    unfold uncalled
    split_ifs
    · exact hf
    · exact h
  cases e with
  | call c =>
    refine huncalled (fun t => { t with pending := some (c, 0), calls := t.calls ++ [c] })
      ⟨h.placed.more c, fun c' i hp => ?_⟩
    obtain ⟨rfl, rfl⟩ := Prod.mk.inj (Option.some.inj hp)
    exact ⟨List.mem_append_right _ (List.mem_singleton_self c), Nat.zero_le _, rfl⟩
  | statement =>
    change EncodeSound (encodeStep t)
    cases hp : t.pending with
    | none =>
      unfold encodeStep
      simp only [hp]
      exact h
    | some call =>
      obtain ⟨c, i⟩ := call
      obtain ⟨hmem, hbuilds⟩ := h.builds c i hp
      rcases encodeStep_cases hp hbuilds with ⟨-, hp', hlink, hcalls, hb'⟩ | ⟨-, hstep⟩
      · refine ⟨?_, fun c' i' hp'' => ?_⟩
        · unfold Placed
          rw [hcalls, hlink]
          exact h.placed
        · obtain ⟨rfl, rfl⟩ := Prod.mk.inj (Option.some.inj (hp'.symm.trans hp''))
          exact ⟨hcalls ▸ hmem, hb'⟩
      · rw [hstep]
        exact ⟨h.placed.postpone hmem c.serialId, fun c' i' hp' => absurd hp' (by simp)⟩
  | int3 =>
    have hevent : encodeEventStep t .int3 = int3Encode t := rfl
    rw [hevent]
    refine ⟨?_, fun c i hp => ?_⟩
    · have hmore : PlacedIn (t.calls ++ [versionCall]) { t.link with
          readBuf := bufferClear t.link.readBuf
          writeBuf := bufferClear t.link.writeBuf
          confirm := true } := h.placed.more versionCall
      change PlacedIn _ (postponeMessage _ _ _)
      rw [int3Encode_handed]
      exact hmore.postpone (List.mem_append_right _ (List.mem_singleton_self _)) _
    · have hp' : t.pending = some (c, i) := hp
      obtain ⟨hmem, hbuilds⟩ := h.builds c i hp'
      exact ⟨List.mem_append_left _ hmem, (builds_int3_iff hp' hbuilds).mpr hc⟩
  | exchange received =>
    obtain ⟨hw, hs, hm⟩ := spiStcVect_frames t.link received
    refine h.link ⟨by rw [hw]; exact h.placed.1, ?_⟩
    rw [hs, hm]
    exact h.placed.2
  | read =>
    exact huncalled (fun t => { t with link := (spiReadSymbol t.link).1 }) (h.link h.placed)
  | postponeTry shiftSpace =>
    exact huncalled (fun t => { t with link := postponeTry t.link shiftSpace })
      (h.link (h.placed.flush shiftSpace))

theorem encodePower_sound : EncodeSound encodePower :=
  ⟨⟨fun _ h => absurd h (by simp [encodePower, linkInit]), fun h => absurd rfl h⟩,
    fun _ _ h => absurd h (by simp [encodePower])⟩

/-- As long as the handler only comes where it is harmless, everything in
`write_buf` and in the slot is the whole frame of one call. And a call it
preempts hands over its own frame only then. -/
theorem frames_of_single_calls (es : List EncodeEvent)
    (h : Along encodeEventStep Harmless encodePower es) :
    Throughout encodeEventStep Placed encodePower es ∧
      ∀ c i, (run encodeEventStep encodePower es).pending = some (c, i) →
        ((run encodeEventStep (run encodeEventStep encodePower es)
            (.int3 :: List.replicate (c.frame.length - i + 1) .statement)).link.created =
          (run encodeEventStep encodePower es).link.created ++ [versionCall.frame, c.frame] ↔
        Harmless (run encodeEventStep encodePower es) .int3) := by
  constructor
  · rw [throughout_iff_start]
    intro ds hd
    exact (run_invariant encodeEventStep_sound encodePower_sound (h.take hd)).placed
  · intro c i hp
    have hsound := run_invariant encodeEventStep_sound encodePower_sound h
    exact encode_preempted hp (hsound.builds c i hp).2

/-- A STATUS, preempted when the eye catch has been stored. -/
theorem frames_of_status : Throughout encodeEventStep Placed encodePower
    ([EncodeEvent.call (.msg2 msgIdStatus 7 statusSuccess msgIdLedArray), .statement, .int3] ++
      List.replicate 6 EncodeEvent.statement) :=
  (frames_of_single_calls _ (by decide)).1

/-- The same call, preempted when its header has been stored: the slot gets the
header of the handler's frame with the payload of the STATUS behind it. -/
theorem status_gets_version_header :
    let t := run encodeEventStep encodePower
      ([EncodeEvent.call (.msg2 msgIdStatus 7 statusSuccess msgIdLedArray)] ++
        List.replicate 4 EncodeEvent.statement ++ [EncodeEvent.int3] ++
        List.replicate 3 EncodeEvent.statement)
    t.link.postponedMessage.take t.link.postponedSize.toNat =
        [eyeCatch, 3, serialIdToIgnore, msgIdVersion, statusSuccess, msgIdLedArray] ∧
      ¬ Placed t := by
  intro t
  have hslot : t.link.postponedMessage.take t.link.postponedSize.toNat =
      [eyeCatch, 3, serialIdToIgnore, msgIdVersion, statusSuccess, msgIdLedArray] := by
    decide
  refine ⟨hslot, fun hplaced => ?_⟩
  obtain ⟨c, -, hframe, hlength⟩ := hplaced.2 (by decide)
  rw [hslot] at hframe hlength
  have hsize : (3 : Byte) = c.size := (List.cons.inj (List.cons.inj hframe).2).1
  rw [← hsize] at hlength
  exact absurd hlength (by decide)

end LedServer.Avr

import LedServer.Message
import LedServer.StreamMachine

set_option autoImplicit false

/-!
# Reading frames byte by byte

What `decode_try` is for: outside a frame everything but the eye catch is
skipped, inside one the size byte says how much belongs to it.
-/
namespace LedServer.FrameReader
open StreamMachine

/-- How much of a frame has been read. -/
inductive Phase where
  | seek
  | size
  | serial (size : Byte)
  | msgId (size serial : Byte)
  | payload (size serial msgId : Byte) (got : List Byte)
deriving DecidableEq

/-- The count of payload bytes the size byte announces, in 8 bits. -/
def need (size : Byte) : ℕ := (size - 2).toNat

/-- A frame that has all its bytes is handed out. -/
def settle : Phase → Phase × List Message
  | .payload size serial msgId got =>
    if got.length = need size then (.seek, [⟨serial, msgId, got⟩])
    else (.payload size serial msgId got, [])
  | p => (p, [])

def advance : Phase → Byte → Phase
  | .seek, b => if b = eyeCatch then .size else .seek
  | .size, b => .serial b
  | .serial size, b => .msgId size b
  | .msgId size serial, b => .payload size serial b []
  | .payload size serial msgId got, b => .payload size serial msgId (got ++ [b])

def step (p : Phase) (b : Byte) : Phase × List Message := settle (advance p b)

def read (p : Phase) (bytes : List Byte) : Phase × List Message := feed step p bytes

/-- The reader in phase `p`, which may be due to hand out a frame, fed with `bytes`. -/
def readFrom (p : Phase) (bytes : List Byte) : Phase × List Message :=
  ((read (settle p).1 bytes).1, (settle p).2 ++ (read (settle p).1 bytes).2)

theorem read_append (p : Phase) (as bs : List Byte) :
    read p (as ++ bs) = ((read (read p as).1 bs).1, (read p as).2 ++ (read (read p as).1 bs).2) :=
  feed_append step p as bs

theorem read_cons (p : Phase) (b : Byte) (bytes : List Byte) :
    read p (b :: bytes) = readFrom (advance p b) bytes := rfl

theorem readFrom_of_settled {p : Phase} (h : settle p = (p, [])) (bytes : List Byte) :
    readFrom p bytes = read p bytes := by
  rw [readFrom, h]
  rfl

theorem readFrom_cons {p : Phase} (h : settle p = (p, [])) (b : Byte) (bytes : List Byte) :
    readFrom p (b :: bytes) = readFrom (advance p b) bytes := by
  rw [readFrom_of_settled h, read_cons]

theorem readFrom_append (p : Phase) (as bs : List Byte) :
    readFrom p (as ++ bs) =
      ((read (readFrom p as).1 bs).1, (readFrom p as).2 ++ (read (readFrom p as).1 bs).2) := by
  unfold readFrom
  rw [read_append, List.append_assoc]

/-- The announced bytes, all at once. -/
theorem readFrom_payload (size serial msgId : Byte) (got payload rest : List Byte)
    (hlen : got.length + payload.length = need size) :
    readFrom (.payload size serial msgId got) (payload ++ rest) =
      ((read .seek rest).1, ⟨serial, msgId, got ++ payload⟩ :: (read .seek rest).2) := by
  induction payload generalizing got with
  | nil =>
    rw [List.length_nil, Nat.add_zero] at hlen
    have hsettle : settle (.payload size serial msgId got) = (.seek, [⟨serial, msgId, got⟩]) := by
      simp only [settle, if_pos hlen]
    rw [readFrom, hsettle, List.append_nil, List.nil_append]
    rfl
  | cons b payload ih =>
    rw [List.length_cons] at hlen
    have hsettle : settle (.payload size serial msgId got) =
        (.payload size serial msgId got, []) := by
      simp only [settle, if_neg (show ¬ got.length = need size by omega)]
    rw [List.cons_append, readFrom_cons hsettle]
    have hnext := ih (got ++ [b]) (by rw [List.length_append, List.length_singleton]; omega)
    rw [List.append_assoc, List.singleton_append] at hnext
    exact hnext

theorem need_frame (m : Message) (hm : m.payload.length < 254) :
    need (BitVec.ofNat 8 m.body.length) = m.payload.length := by
  rw [Message.body_length]
  unfold need
  bv_omega

/-- A frame is read as its message, whatever follows. -/
theorem read_frame_append (m : Message) (hm : m.payload.length < 254) (rest : List Byte) :
    read .seek (m.frame ++ rest) = ((read .seek rest).1, m :: (read .seek rest).2) := by
  have hpayload := readFrom_payload (BitVec.ofNat 8 m.body.length) m.serial m.id [] m.payload rest
    (by rw [need_frame m hm]; simp)
  rw [List.nil_append] at hpayload
  rw [← hpayload]
  rfl

theorem read_frame (m : Message) (hm : m.payload.length < 254) :
    read .seek m.frame = (.seek, [m]) := by
  have h := read_frame_append m hm []
  rw [List.append_nil] at h
  exact h

theorem read_frames {ms : List Message} (hm : ∀ m ∈ ms, m.payload.length < 254) :
    read .seek (ms.flatMap Message.frame) = (.seek, ms) := by
  have h : read .seek (ms.flatMap Message.frame) = (.seek, ms.map id) :=
    feed_words Message.frame id ms fun m h => read_frame m (hm m h)
  rw [List.map_id] at h
  exact h

/-- A reader that ends outside a frame has had all bytes of the one it was in. -/
theorem readFrom_payload_seek {size serial msgId : Byte} {got bytes : List Byte}
    (hgot : got.length ≤ need size)
    (h : (readFrom (.payload size serial msgId got) bytes).1 = .seek) :
    need size ≤ got.length + bytes.length := by
  induction bytes generalizing got with
  | nil =>
    by_contra hshort
    rw [List.length_nil, Nat.add_zero] at hshort
    have hsettle : settle (.payload size serial msgId got) =
        (.payload size serial msgId got, []) := by
      simp only [settle, if_neg (show ¬ got.length = need size by omega)]
    rw [readFrom_of_settled hsettle] at h
    exact absurd h (by simp [read])
  | cons b bytes ih =>
    by_cases hfull : got.length = need size
    · omega
    · have hsettle : settle (.payload size serial msgId got) =
          (.payload size serial msgId got, []) := by
        simp only [settle, if_neg hfull]
      rw [readFrom_cons hsettle] at h
      have hnext := @ih (got ++ [b])
        (by rw [List.length_append, List.length_singleton]; omega) h
      rw [List.length_append, List.length_singleton] at hnext
      rw [List.length_cons]
      omega

end LedServer.FrameReader

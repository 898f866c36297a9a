import LedServer.Message
import LedServer.StreamMachine

set_option autoImplicit false

/-!
# `mcu-id.hpp`, `mcu-encode.hpp`, `mcu-decode.hpp` and `mcu-parse.cpp`

A `mcu_msg_t` is a list of bytes: a message body, or a frame once wrapped.
-/
namespace LedServer.Mcu
open StreamMachine

/-- `mcu_id::get`, given its static `serial_id`. -/
def mcuIdGet (serialId : Byte) : Byte :=
  if serialId + 1 = serialIdToIgnore then serialId + 2 else serialId + 1

def encodeWrap (msg : List Byte) : List Byte := eyeCatch :: BitVec.ofNat 8 msg.length :: msg

def encodeJoin (serial msgId : Byte) (payload : List Byte) : List Byte := serial :: msgId :: payload

def decodeUnwrap (msg : List Byte) : List Byte × Bool :=
  let msg := msg.dropWhile (· ≠ eyeCatch)
  if msg = [] then (msg, false)
  else if msg.length < 4 then (msg, false)
  else if (msg.getD 1 0).toNat > msg.length - 2 then (msg, false)
  else (msg.drop 2, true)

def decodeGetSerial : List Byte → Option Byte
  | serial :: _ :: _ => some serial
  | _ => none

def decodeGetMsgId : List Byte → Option Byte
  | _ :: msgId :: _ => some msgId
  | _ => none

/-- `mcu_parse_t::push` on `m_buf`; the message is the one handed back. -/
def mcuParsePush (buf : List Byte) (info : Byte) : List Byte × Option (List Byte) :=
  if buf = [] ∧ (info = spiWriteUnderflow ∨ info = spiReadOverflow) then (buf, none)
  else
    match decodeUnwrap (buf ++ [info]) with
    | (buf, false) => (buf, none)
    | (msg, true) => ([], some msg)

def parseStep (buf : List Byte) (info : Byte) : List Byte × List (List Byte) :=
  ((mcuParsePush buf info).1, (mcuParsePush buf info).2.toList)

/-- The parser fed with a stream: what it keeps and the messages it hands out. -/
def parse (buf : List Byte) (bytes : List Byte) : List Byte × List (List Byte) :=
  feed parseStep buf bytes

theorem mcuIdGet_ne (serialId : Byte) : mcuIdGet serialId ≠ serialIdToIgnore := by
  unfold mcuIdGet serialIdToIgnore
  split_ifs with h
  · bv_omega
  · exact h

theorem wrap_join (serial msgId : Byte) (payload : List Byte) :
    encodeWrap (encodeJoin serial msgId payload) = (Message.mk serial msgId payload).frame := rfl

theorem getSerial_body (m : Message) : decodeGetSerial m.body = some m.serial := rfl

theorem parse_append (buf as bs : List Byte) :
    parse buf (as ++ bs) =
      ((parse (parse buf as).1 bs).1, (parse buf as).2 ++ (parse (parse buf as).1 bs).2) :=
  feed_append parseStep buf as bs

theorem parse_prefix (buf as bs : List Byte) : (parse buf as).2 <+: (parse buf (as ++ bs)).2 :=
  feed_prefix parseStep buf as bs

/-- The first messages of a parse are those of its first bytes. -/
theorem parse_split {buf bytes rest : List Byte} {ups : List Message}
    (h : parse buf (bytes ++ rest) = ([], ups.map Message.body)) :
    ∃ got left, ups = got ++ left ∧ (parse buf bytes).2 = got.map Message.body ∧
      parse (parse buf bytes).1 rest = ([], left.map Message.body) := by
  rw [parse_append] at h
  have hbuf := congrArg Prod.fst h
  have hmsgs := congrArg Prod.snd h
  dsimp only at hbuf hmsgs
  obtain ⟨got, left, hups, hgot, hleft⟩ := List.map_eq_append_iff.mp hmsgs.symm
  exact ⟨got, left, hups, hgot.symm, Prod.ext hbuf hleft.symm⟩

theorem parse_single (buf : List Byte) (b : Byte) : parse buf [b] = parseStep buf b :=
  feed_single parseStep buf b

/-- The two values the AVR sends when it has nothing to say or no room to listen. -/
def IsFiller (b : Byte) : Prop := b = spiWriteUnderflow ∨ b = spiReadOverflow

instance (b : Byte) : Decidable (IsFiller b) := inferInstanceAs (Decidable (_ ∨ _))

theorem parseStep_filler {b : Byte} (h : IsFiller b) : parseStep [] b = ([], []) := by
  rcases h with rfl | rfl <;> rfl

/-- Outside a frame all but the eye catch is skipped. -/
theorem parseStep_skipped {b : Byte} (h : b ≠ eyeCatch) : parseStep [] b = ([], []) := by
  by_cases hb : IsFiller b
  · exact parseStep_filler hb
  · have hdrop : [b].dropWhile (· ≠ eyeCatch) = [] := by simp [h]
    unfold parseStep mcuParsePush decodeUnwrap
    rw [if_neg fun hf => hb hf.2, List.nil_append, hdrop]
    rfl

/-- `bytes` is `out` with fillers put in anywhere. -/
inductive Padded : List Byte → List Byte → Prop where
  | nil : Padded [] []
  | byte {bytes out : List Byte} (b : Byte) (h : Padded bytes out) :
      Padded (bytes ++ [b]) (out ++ [b])
  | filler {bytes out : List Byte} {b : Byte} (hb : IsFiller b) (h : Padded bytes out) :
      Padded (bytes ++ [b]) out

/-- A filler in front is one more. -/
theorem Padded.cons {bytes out : List Byte} {b : Byte} (hb : IsFiller b) (h : Padded bytes out) :
    Padded (b :: bytes) out := by
  induction h with
  | nil => exact .filler hb .nil
  | byte c _ ih => exact .byte c ih
  | filler hc _ ih => exact .filler hc ih

/-- Without its last byte a padded stream is one of a beginning. -/
theorem Padded.front {bytes out : List Byte} {b : Byte} (h : Padded (bytes ++ [b]) out) :
    ∃ front, Padded bytes front ∧ front <+: out := by
  generalize hw : bytes ++ [b] = whole at h
  cases h with
  | nil => exact absurd hw (by simp)
  | byte c h =>
    obtain ⟨rfl, -⟩ := List.append_inj' hw rfl
    exact ⟨_, h, List.prefix_append _ _⟩
  | filler hc h =>
    obtain ⟨rfl, -⟩ := List.append_inj' hw rfl
    exact ⟨_, h, List.prefix_refl _⟩

/-- Each byte is a filler or one of the stream's own. -/
theorem Padded.mem {bytes out : List Byte} (h : Padded bytes out) :
    ∀ b ∈ bytes, IsFiller b ∨ b ∈ out := by
  induction h with
  | nil => simp
  | byte c h ih =>
    intro b hb
    rcases List.mem_append.mp hb with hb | hb
    · exact (ih b hb).imp_right (List.mem_append_left _)
    · exact .inr (List.mem_append_right _ hb)
  | filler hc h ih =>
    intro b hb
    rcases List.mem_append.mp hb with hb | hb
    · exact ih b hb
    · rw [List.mem_singleton.mp hb]
      exact .inl hc

/-- What is left to be decided once the eye catch and the size are there. -/
theorem decodeUnwrap_frame (size : Byte) (rest : List Byte) :
    decodeUnwrap (eyeCatch :: size :: rest) =
      if rest.length < max size.toNat 2 then (eyeCatch :: size :: rest, false)
      else (rest, true) := by
  have hdrop : (eyeCatch :: size :: rest).dropWhile (· ≠ eyeCatch) = eyeCatch :: size :: rest :=
    List.dropWhile_cons_of_neg (by simp)
  have hget : (eyeCatch :: size :: rest).getD 1 0 = size := rfl
  have hlen : (eyeCatch :: size :: rest).length = rest.length + 2 := rfl
  unfold decodeUnwrap
  rw [hdrop, if_neg (List.cons_ne_nil _ _), hget, hlen, Nat.add_sub_cancel]
  simp only [List.drop_succ_cons, List.drop_zero]
  by_cases hshort : rest.length + 2 < 4
  · rw [if_pos hshort, if_pos (by omega)]
  · rw [if_neg hshort]
    by_cases hsize : size.toNat > rest.length
    · rw [if_pos hsize, if_pos (by omega)]
    · rw [if_neg hsize, if_neg (by omega)]

theorem parse_eyeCatch : parse [] [eyeCatch] = ([eyeCatch], []) := by decide

theorem parse_size (size : Byte) : parse [] [eyeCatch, size] = ([eyeCatch, size], []) := by
  have hpush : mcuParsePush [eyeCatch] size = ([eyeCatch, size], none) := by
    rw [mcuParsePush, if_neg fun h => List.cons_ne_nil _ _ h.1, List.singleton_append,
      decodeUnwrap_frame, if_pos (by simp)]
  rw [← List.singleton_append, parse_append, parse_eyeCatch, parse_single, parseStep, hpush]
  rfl

/-- One more byte of a frame. -/
theorem mcuParsePush_frame (size : Byte) (rest : List Byte) (b : Byte) :
    mcuParsePush (eyeCatch :: size :: rest) b =
      if rest.length + 1 < max size.toNat 2 then (eyeCatch :: size :: (rest ++ [b]), none)
      else ([], some (rest ++ [b])) := by
  rw [mcuParsePush, if_neg fun h => List.cons_ne_nil _ _ h.1, List.cons_append, List.cons_append,
    decodeUnwrap_frame, List.length_append, List.length_singleton]
  split_ifs <;> rfl

/-- The parser keeps the bytes of a frame that is not complete. -/
theorem parse_cut (size : Byte) (rest : List Byte) (h : rest.length < max size.toNat 2) :
    parse [] (eyeCatch :: size :: rest) = (eyeCatch :: size :: rest, []) := by
  induction rest using List.reverseRecOn with
  | nil => exact parse_size size
  | append_singleton rest b ih =>
    rw [List.length_append, List.length_singleton] at h
    rw [← List.cons_append, ← List.cons_append, parse_append, ih (by omega), parse_single,
      parseStep, mcuParsePush_frame, if_pos h]
    rfl

/-- A frame fed to the empty parser comes out as what follows its size. -/
theorem parse_whole (size : Byte) (msg : List Byte) (h : msg.length = max size.toNat 2) :
    parse [] (eyeCatch :: size :: msg) = ([], [msg]) := by
  have hne : msg ≠ [] := by
    rintro rfl
    rw [List.length_nil] at h
    omega
  obtain ⟨rest, b, rfl⟩ := (List.eq_nil_or_concat' msg).resolve_left hne
  rw [List.length_append, List.length_singleton] at h
  rw [← List.cons_append, ← List.cons_append, parse_append, parse_cut size rest (by omega),
    parse_single, parseStep, mcuParsePush_frame, if_neg (by omega)]
  rfl

theorem size_toNat (m : Message) (hm : m.payload.length < 254) :
    max (BitVec.ofNat 8 m.body.length).toNat 2 = m.body.length := by
  rw [Message.body_length, BitVec.toNat_ofNat]
  omega

theorem parse_take (m : Message) (hm : m.payload.length < 254) {n : ℕ}
    (hn : n < m.frame.length) : parse [] (m.frame.take n) = (m.frame.take n, []) := by
  rw [Message.frame_length] at hn
  match n with
  | 0 => rfl
  | 1 => exact parse_eyeCatch
  | n + 2 =>
    rw [Message.frame, List.take_succ_cons, List.take_succ_cons]
    apply parse_cut
    rw [size_toNat m hm, List.length_take, Message.body_length]
    omega

theorem parse_frame (m : Message) (hm : m.payload.length < 254) :
    parse [] m.frame = ([], [m.body]) :=
  parse_whole _ _ (size_toNat m hm).symm

theorem parse_frames {ms : List Message} (hm : ∀ m ∈ ms, m.payload.length < 254) :
    parse [] (ms.flatMap Message.frame) = ([], ms.map Message.body) :=
  feed_words Message.frame Message.body ms fun m h => parse_frame m (hm m h)

end LedServer.Mcu

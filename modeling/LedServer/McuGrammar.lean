import LedServer.McuMessage

set_option autoImplicit false

/-!
# What the parser reads

The messages in a stream of bytes, however malformed, by the grammar and by the
parser.
-/
namespace LedServer.Mcu

/-- The messages of a stream and what is left of it. Bytes are skipped up to an
eye catch, and at least two are taken after a size. -/
inductive Grammar : List Byte → List (List Byte) → List Byte → Prop where
  | done : Grammar [] [] []
  | skip {b : Byte} {bytes left : List Byte} {ms : List (List Byte)} (hb : b ≠ eyeCatch)
      (h : Grammar bytes ms left) : Grammar (b :: bytes) ms left
  | eyeCatch : Grammar [eyeCatch] [] [eyeCatch]
  | cut {size : Byte} {rest : List Byte} (h : rest.length < max size.toNat 2) :
      Grammar (LedServer.eyeCatch :: size :: rest) [] (LedServer.eyeCatch :: size :: rest)
  | message {size : Byte} {msg bytes left : List Byte} {ms : List (List Byte)}
      (hlen : msg.length = max size.toNat 2) (h : Grammar bytes ms left) :
      Grammar (LedServer.eyeCatch :: size :: (msg ++ bytes)) (msg :: ms) left

/-- Every stream has a reading. -/
theorem grammar_total (bytes : List Byte) : ∃ ms left, Grammar bytes ms left := by
  induction hn : bytes.length using Nat.strong_induction_on generalizing bytes with
  | _ n ih =>
    match bytes with
    | [] => exact ⟨[], [], .done⟩
    | b :: bytes =>
      by_cases hb : b = eyeCatch
      · subst hb
        match bytes with
        | [] => exact ⟨[], [eyeCatch], .eyeCatch⟩
        | size :: rest =>
          by_cases hcut : rest.length < max size.toNat 2
          · exact ⟨[], _, .cut hcut⟩
          · simp only [List.length_cons] at hn
            obtain ⟨ms, left, h⟩ := ih _ (by rw [List.length_drop]; omega)
              (rest.drop (max size.toNat 2)) rfl
            have hlen : (rest.take (max size.toNat 2)).length = max size.toNat 2 := by
              rw [List.length_take]
              omega
            refine ⟨rest.take (max size.toNat 2) :: ms, left, ?_⟩
            have hmessage := Grammar.message hlen h
            rwa [List.take_append_drop] at hmessage
      · obtain ⟨ms, left, h⟩ := ih _ (by rw [← hn]; exact Nat.lt_succ_self _) bytes rfl
        exact ⟨ms, left, .skip hb h⟩

/-- The parser reads a stream as the grammar does. -/
theorem Grammar.parse {bytes left : List Byte} {ms : List (List Byte)}
    (h : Grammar bytes ms left) : parse [] bytes = (left, ms) := by
  induction h with
  | done => rfl
  | skip hb h ih => rw [Mcu.parse, StreamMachine.feed_skip (parseStep_skipped hb)]; exact ih
  | eyeCatch => exact parse_eyeCatch
  | cut h => exact parse_cut _ _ h
  | message hlen h ih =>
    rw [← List.cons_append, ← List.cons_append, parse_append, parse_whole _ _ hlen, ih]
    rfl

/-- What is left is less than a whole frame. -/
theorem Grammar.left_length {bytes left : List Byte} {ms : List (List Byte)}
    (h : Grammar bytes ms left) : left.length ≤ 256 := by
  induction h with
  | done => exact Nat.zero_le _
  | skip hb h ih => exact ih
  | eyeCatch => simp
  | @cut size rest h =>
    have hsize := size.isLt
    rw [List.length_cons, List.length_cons]
    omega
  | message hlen h ih => exact ih

theorem Grammar.message_length {bytes left : List Byte} {ms : List (List Byte)}
    (h : Grammar bytes ms left) {m : List Byte} (hm : m ∈ ms) : 2 ≤ m.length := by
  induction h with
  | done => exact absurd hm List.not_mem_nil
  | skip hb h ih => exact ih hm
  | eyeCatch => exact absurd hm List.not_mem_nil
  | cut h => exact absurd hm List.not_mem_nil
  | message hlen h ih =>
    rcases List.mem_cons.mp hm with rfl | hm
    · rw [hlen]
      exact le_max_right _ _
    · exact ih hm

/-- A message of two bytes has a serial and an id. -/
theorem split_isSome {m : List Byte} (h : 2 ≤ m.length) :
    (decodeGetSerial m).isSome = true ∧ (decodeGetMsgId m).isSome = true := by
  match m with
  | [] => simp at h
  | [_] => simp at h
  | _ :: _ :: _ => exact ⟨rfl, rfl⟩

/-- From an empty buffer the parser hands out the messages of the grammar and
keeps what is left of the stream, which is 256 bytes at most. -/
theorem parse_grammar (bytes : List Byte) :
    (∀ ms left, parse [] bytes = (left, ms) ↔ Grammar bytes ms left) ∧
      (parse [] bytes).1.length ≤ 256 ∧
      ∀ m ∈ (parse [] bytes).2, 2 ≤ m.length ∧
        (decodeGetSerial m).isSome = true ∧ (decodeGetMsgId m).isSome = true := by
  obtain ⟨ms, left, h⟩ := grammar_total bytes
  refine ⟨fun ms' left' => ⟨fun heq => ?_, Grammar.parse⟩, ?_, fun m hm => ?_⟩
  · rw [h.parse, Prod.mk.injEq] at heq
    obtain ⟨rfl, rfl⟩ := heq
    exact h
  · rw [h.parse]
    exact h.left_length
  · rw [h.parse] at hm
    have hlen := h.message_length hm
    exact ⟨hlen, split_isSome hlen⟩

end LedServer.Mcu

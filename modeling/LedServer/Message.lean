import LedServer.Constant

set_option autoImplicit false

/-!
# The message format

`EYE_CATCH | SIZE | SERIAL | MSG_ID | PAYLOAD...`, in both directions, where
the size counts the serial, the message id and the payload.
-/
namespace LedServer

structure Message where
  serial : Byte
  id : Byte
  payload : List Byte
deriving DecidableEq, Repr

namespace Message

def body (m : Message) : List Byte := m.serial :: m.id :: m.payload

def frame (m : Message) : List Byte := eyeCatch :: BitVec.ofNat 8 m.body.length :: m.body

theorem body_length (m : Message) : m.body.length = m.payload.length + 2 := rfl

theorem frame_length (m : Message) : m.frame.length = m.payload.length + 4 := rfl

theorem body_injective : Function.Injective body := by
  rintro ⟨s, i, p⟩ ⟨s', i', p'⟩ h
  simp only [body, List.cons.injEq] at h
  obtain ⟨rfl, rfl, rfl⟩ := h
  rfl

theorem frame_injective : Function.Injective frame := by
  intro m m' h
  simp only [frame, List.cons.injEq] at h
  exact body_injective h.2.2

end Message

end LedServer

import Jig.Lib.Text
import Mathlib.Data.List.Infix

/-!
# Readers of byte streams

Rust's `Read::read` as a step of a state: a call with a buffer of some length may be interrupted,
may fail, or reports how many bytes it left in the buffer. `Delivers` says that a reader hands out a
given stream: in pieces of any positive lengths that fit the buffers, with finitely many
interruptions, and with the report of zero bytes only at the end.
-/

namespace Jig.Lib

universe u v

inductive ReadOutcome (ε : Type u) where
  | read (length : Nat) (front : Bytes)
  | interrupted
  | failed (error : ε)

/-- The bytes that a call takes from the stream. -/
def ReadOutcome.taken {ε : Type u} : ReadOutcome ε → Nat
  | .read length _ => length
  | _ => 0

abbrev Reader (σ : Type u) (ε : Type v) := Nat → σ → ReadOutcome ε × σ

def ReadOutcome.Fits {ε : Type u} (outcome : ReadOutcome ε) (bound : Nat) (stream : Bytes) :
    Prop :=
  match outcome with
  | .read length front =>
      front.length = length ∧ length ≤ bound ∧ front <+: stream ∧ (length = 0 → stream = [])
  | .interrupted => True
  | .failed _ => False

def ReadOutcome.isEnd {ε : Type u} : ReadOutcome ε → Bool
  | .read 0 _ => true
  | _ => false

/-- In the given state the reader has exactly the given stream to hand out. -/
inductive Delivers {σ : Type u} {ε : Type v} (read : Reader σ ε) : σ → Bytes → Prop
  | intro {s : σ} {stream : Bytes}
      (fits : ∀ bound, 0 < bound → (read bound s).1.Fits bound stream)
      (continues : ∀ bound, 0 < bound → (read bound s).1.isEnd = false →
        Delivers read (read bound s).2 (stream.drop (read bound s).1.taken)) :
      Delivers read s stream

end Jig.Lib

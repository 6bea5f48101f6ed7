import MapArchive.Bytes.Cursor

/-!
# Converting bytes one for one

A converter goes over bytes from the first to the last and puts another byte in the place of each.
What becomes of a byte is decided by what is remembered of the bytes before and by the bytes from
there on, as far as the converter's reach goes. So near the end of the bytes nothing is decided
until more of them are known. `advance` goes as far as can be gone.
-/

namespace MapArchive

/-- A way to convert bytes one for one. -/
structure Converter where
  /-- What can be remembered. -/
  State : Type
  /-- What is remembered at the start. -/
  start : State
  /-- How many bytes, from a place on, decide what becomes of the byte there. -/
  reach : Nat
  /-- What the bytes from a place on become, and what is remembered then. As many bytes are
  converted as are given, at least one. -/
  step : ByteArray → Nat → State → List UInt8 × State
  /-- No bytes are converted that are out of reach, except the one at the place itself. -/
  length_step_le : ∀ bytes place state, (step bytes place state).1.length ≤ max 1 reach

namespace Converter

/-- Appends bytes from a list. -/
def pushAll (out : ByteArray) (bytes : List UInt8) : ByteArray := bytes.foldl .push out

/-- How far a converter has come. -/
structure Point (c : Converter) where
  /-- The first place that has not been converted. -/
  place : Nat
  /-- What is remembered there. -/
  state : c.State

/-- At the start. -/
def origin (c : Converter) : Point c := ⟨0, c.start⟩

/-- Goes on from a point as far as the bytes decide. What they become is appended to `out`. -/
def advance (c : Converter) (bytes : ByteArray) (p : Point c) (out : ByteArray) :
    Point c × ByteArray :=
  if p.place < bytes.size ∧ p.place + c.reach ≤ bytes.size then
    match c.step bytes p.place p.state with
    | ([], _) => (p, out)
    | (first :: more, state) =>
      advance c bytes ⟨p.place + more.length + 1, state⟩ (pushAll out (first :: more))
  else (p, out)
termination_by bytes.size - p.place

/-- Bytes pushed one by one stand at the end. -/
@[simp] theorem octets_pushAll (out : ByteArray) (bytes : List UInt8) :
    octets (pushAll out bytes) = octets out ++ bytes := by
  induction bytes generalizing out with
  | nil => simp [pushAll]
  | cons first more ih =>
    have := ih (out.push first)
    simp_all [pushAll, octets]

/-- Every byte pushed adds one to the size. -/
theorem size_pushAll (out : ByteArray) (bytes : List UInt8) :
    (pushAll out bytes).size = out.size + bytes.length := by
  rw [← length_octets, octets_pushAll, List.length_append, length_octets]

/-- A point is never beyond the bytes. -/
theorem place_advance_le (c : Converter) {bytes : ByteArray} {p : Point c} (out : ByteArray)
    (h : p.place ≤ bytes.size) : (c.advance bytes p out).1.place ≤ bytes.size := by
  fun_induction advance c bytes p out with
  | case1 | case3 => exact h
  | case2 p out hwithin first more state hstep ih =>
    have hlength := c.length_step_le bytes p.place p.state
    rw [hstep, List.length_cons] at hlength
    exact ih (by show p.place + more.length + 1 ≤ bytes.size; omega)

/-- As many bytes come out as the point goes on. -/
theorem size_advance (c : Converter) (bytes : ByteArray) (p : Point c) (out : ByteArray) :
    (c.advance bytes p out).2.size + p.place = out.size + (c.advance bytes p out).1.place := by
  fun_induction advance c bytes p out with
  | case1 | case3 => rfl
  | case2 p out hwithin first more state hstep ih =>
    rw [size_pushAll, List.length_cons] at ih
    have hplace : (⟨p.place + more.length + 1, state⟩ : Point c).place =
      p.place + more.length + 1 := rfl
    omega

end Converter

end MapArchive

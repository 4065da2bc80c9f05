import OperatorCalculator.Proofs.Session.Transcript

/-
Sessions on an output that runs full.

An output of limited room takes as many bytes as there is room for, and the session ends
with the first byte that it does not take.  Until then nothing is different: so the session
writes the beginning of what it would write on any other output, and whatever else would
have ended it counts only if it comes first.
-/

set_option autoImplicit false

namespace OperatorCalculator
namespace Transcript

/-- The transcript breaks off after `size` bytes of another one, for want of room. -/
structure BreaksOff (cut whole : Transcript) (size : Nat) : Prop where
  ending : cut.ending = .outputFull
  size : cut.output.size = size
  output : ∃ lost, whole.output = cut.output ++ lost
  events : ∃ missed, whole.events = cut.events ++ missed

/-! ### Performing with room for everything -/

theorem exists_perform_none (transcript : Transcript) (acts : List Act) :
    ∃ written noted, (transcript.perform none acts).output = transcript.output ++ written ∧
      (transcript.perform none acts).events = transcript.events ++ noted := by
  induction acts generalizing transcript with
  | nil => exact ⟨.empty, #[], ByteArray.append_empty.symm, Array.append_empty.symm⟩
  | cons act acts ih =>
      cases act with
      | giveUp => exact ⟨.empty, #[], ByteArray.append_empty.symm, Array.append_empty.symm⟩
      | note event =>
          rcases ih { transcript with events := transcript.events.push event } with
            ⟨written, noted, hOutput, hEvents⟩
          refine ⟨written, #[event] ++ noted, hOutput, ?_⟩
          rw [← Array.append_assoc, ← Array.push_eq_append]
          exact hEvents
      | write text =>
          rcases ih { transcript with output := transcript.output ++ text.toUTF8 } with
            ⟨written, noted, hOutput, hEvents⟩
          refine ⟨text.toUTF8 ++ written, noted, ?_, hEvents⟩
          rw [← ByteArray.append_assoc]
          exact hOutput

theorem ending_perform_none {transcript : Transcript}
    (hEnding : transcript.ending ≠ .outputFull) (acts : List Act) :
    (transcript.perform none acts).ending ≠ .outputFull := by
  induction acts generalizing transcript with
  | nil => exact hEnding
  | cons act acts ih =>
      cases act with
      | giveUp =>
          intro impossible
          contradiction
      | note event => exact ih hEnding
      | write text => exact ih hEnding

theorem size_write_le (transcript : Transcript) (text : String) (acts : List Act) :
    transcript.output.size + text.toUTF8.size ≤
      (transcript.perform none (.write text :: acts)).output.size := by
  rcases exists_perform_none { transcript with output := transcript.output ++ text.toUTF8 } acts
    with ⟨written, _, hOutput, _⟩
  rw [perform, hOutput, ByteArray.size_append, ByteArray.size_append]
  exact Nat.le_add_right _ _

/-! ### Performing with limited room -/

variable {transcript : Transcript} {room : Nat}

theorem perform_write_of_le {text : String} (hFits : text.toUTF8.size ≤ room)
    (acts : List Act) :
    transcript.perform (some room) (.write text :: acts) =
      perform (some (room - text.toUTF8.size))
        { transcript with output := transcript.output ++ text.toUTF8 } acts := by
  rw [perform]
  exact if_pos hFits

theorem perform_write_of_lt {text : String} (hLong : room < text.toUTF8.size)
    (acts : List Act) :
    transcript.perform (some room) (.write text :: acts) =
      { transcript with
        output := transcript.output ++ text.toUTF8.extract 0 room
        ending := .outputFull } := by
  rw [perform]
  exact if_neg (Nat.not_le.mpr hLong)

/-- It makes no difference whether a text is written at once or in two parts. -/
theorem perform_write_append (transcript : Transcript) (room : Nat) (front back : String)
    (acts : List Act) :
    transcript.perform (some room) (.write (front ++ back) :: acts) =
      transcript.perform (some room) (.write front :: .write back :: acts) := by
  have bytes : (front ++ back).toUTF8 = front.toUTF8 ++ back.toUTF8 := by
    simp only [String.toUTF8_eq_toByteArray, String.toByteArray_append]
  have size := congrArg ByteArray.size bytes
  rw [ByteArray.size_append] at size
  by_cases hFront : front.toUTF8.size ≤ room
  · rw [perform_write_of_le hFront]
    by_cases hBack : back.toUTF8.size ≤ room - front.toUTF8.size
    · have hBoth : (front ++ back).toUTF8.size ≤ room := by omega
      rw [perform_write_of_le hBoth, perform_write_of_le hBack, size, Nat.sub_sub, bytes,
        ByteArray.append_assoc]
    · -- The room ends inside the second part.
      have hBoth : room < (front ++ back).toUTF8.size := by omega
      have cut : (front ++ back).toUTF8.extract 0 room =
          front.toUTF8 ++ back.toUTF8.extract 0 (room - front.toUTF8.size) := by
        have behind := ByteArray.extract_append_size_add (a := front.toUTF8) (b := back.toUTF8)
          (i := 0) (j := room - front.toUTF8.size)
        rw [Nat.add_zero, Nat.add_sub_cancel' hFront] at behind
        rw [bytes, ByteArray.extract_eq_extract_append_extract front.toUTF8.size
          (Nat.zero_le _) hFront, ByteArray.extract_append_eq_left rfl, behind]
      rw [perform_write_of_lt hBoth, perform_write_of_lt (Nat.not_le.mp hBack), cut,
        ByteArray.append_assoc]
  · -- The room ends inside the first part.
    have hBoth : room < (front ++ back).toUTF8.size := by omega
    have cut : (front ++ back).toUTF8.extract 0 room = front.toUTF8.extract 0 room := by
      have nothing : room - front.toUTF8.size = 0 := by omega
      rw [bytes, ByteArray.extract_append, nothing, Nat.zero_sub, ByteArray.extract_same,
        ByteArray.append_empty]
    rw [perform_write_of_lt hBoth, perform_write_of_lt (Nat.not_le.mp hFront), cut]

/-- What fits is performed as on any other output. -/
theorem perform_of_fits {acts : List Act}
    (hFits : (transcript.perform none acts).output.size ≤ transcript.output.size + room) :
    transcript.perform (some room) acts = transcript.perform none acts := by
  induction acts generalizing transcript room with
  | nil => rfl
  | cons act acts ih =>
      cases act with
      | giveUp => rfl
      | note event => exact ih hFits
      | write text =>
          have longer := transcript.size_write_le text acts
          have fits : text.toUTF8.size ≤ room := by omega
          rw [perform_write_of_le fits]
          apply ih
          rw [ByteArray.size_append, Nat.add_assoc, Nat.add_sub_cancel' fits]
          exact hFits

/-- What does not fit is performed up to the byte for which there is no room. -/
theorem perform_breaksOff {acts : List Act}
    (hLong : transcript.output.size + room < (transcript.perform none acts).output.size) :
    (transcript.perform (some room) acts).BreaksOff (transcript.perform none acts)
      (transcript.output.size + room) := by
  induction acts generalizing transcript room with
  | nil =>
      have short : (transcript.perform none []).output.size = transcript.output.size := rfl
      omega
  | cons act acts ih =>
      cases act with
      | giveUp =>
          have short : (transcript.perform none (.giveUp :: acts)).output.size =
              transcript.output.size := rfl
          omega
      | note event => exact ih hLong
      | write text =>
          by_cases fits : text.toUTF8.size ≤ room
          · have size : transcript.output.size + room =
                (transcript.output ++ text.toUTF8).size + (room - text.toUTF8.size) := by
              rw [ByteArray.size_append]
              omega
            rw [perform_write_of_le fits, size]
            apply ih
            rw [← size]
            exact hLong
          · have short : room < text.toUTF8.size := Nat.not_le.mp fits
            rcases exists_perform_none
              { transcript with output := transcript.output ++ text.toUTF8 } acts with
              ⟨written, noted, hOutput, hEvents⟩
            rw [perform_write_of_lt short]
            refine ⟨rfl, ?_, ⟨text.toUTF8.extract room text.toUTF8.size ++ written, ?_⟩,
              ⟨noted, hEvents⟩⟩
            · rw [ByteArray.size_append, ByteArray.size_extract]
              omega
            · have whole := ByteArray.extract_eq_extract_append_extract
                (a := text.toUTF8) room (Nat.zero_le _) (Nat.le_of_lt short)
              rw [ByteArray.extract_zero_size] at whole
              rw [perform, hOutput]
              calc transcript.output ++ text.toUTF8 ++ written
                  = transcript.output ++ (text.toUTF8.extract 0 room ++
                      text.toUTF8.extract room text.toUTF8.size) ++ written := by rw [← whole]
                _ = transcript.output ++ text.toUTF8.extract 0 room ++
                      (text.toUTF8.extract room text.toUTF8.size ++ written) := by
                    simp only [ByteArray.append_assoc]

end Transcript

/-- On an output with room for all that a session writes, the session is the one that any
other output would see, its end included.  With less room it writes exactly the bytes that
there is room for and fails for want of more, wherever in a text that happens and whatever
would have ended it later.  An output with room for everything never fails in this way, and
a text may as well be written in parts. -/
theorem session_breaks_off_when_output_is_full (settings : Settings) (listener : Listener)
    (room : Nat) (input : List UInt8) :
    let whole := Session.run settings listener none input
    let cut := Session.run settings listener (some room) input
    whole.ending ≠ .outputFull ∧
      (whole.output.size ≤ room → cut = whole) ∧
      (room < whole.output.size → cut.BreaksOff whole room) ∧
      ∀ (transcript : Transcript) (front back : String) (acts : List Act),
        transcript.perform (some room) (.write (front ++ back) :: acts) =
          transcript.perform (some room) (.write front :: .write back :: acts) := by
  intro whole cut
  refine ⟨?_, ?_, ?_, fun transcript => transcript.perform_write_append room⟩
  · apply Transcript.ending_perform_none
    intro impossible
    contradiction
  · intro hFits
    apply Transcript.perform_of_fits
    rw [ByteArray.size_empty, Nat.zero_add]
    exact hFits
  · intro hLong
    have breaks : cut.BreaksOff whole (ByteArray.empty.size + room) := by
      apply Transcript.perform_breaksOff
      rw [ByteArray.size_empty, Nat.zero_add]
      exact hLong
    rwa [ByteArray.size_empty, Nat.zero_add] at breaks

example :
    ((Session.run {} (fun _ => false) (some 3) "1 + 2\n\n".toUTF8.toList).output,
      (Session.run {} (fun _ => false) (some 8) "1 + 2\n\n".toUTF8.toList).ending) =
      ("> 3".toUTF8, .finished) := by
  decide +kernel

end OperatorCalculator

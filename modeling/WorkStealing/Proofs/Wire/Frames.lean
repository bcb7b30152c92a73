import WorkStealing.Proofs.Wire.RoundTrip

/-!
# Messages in frames

A message travels as two frames, its topic and its bytes, behind any number of empty frames that
only delimit. The reader finds the two by skipping the empty frames in front
(`Message.dropWhile_delimited`), so it finds the topic exactly if that is not empty itself, and then
reads what the bytes say (`Message.toFrames_read_iff`). Behind an empty topic it is left with one
frame and reads nothing. So two kinds of message do not come back as they were: those without a
topic, and those sent in a leap second that cannot be written (`Message.not_all_read`).
-/

namespace WorkStealing.Message

variable {m : Message}

/-- The first frame is empty exactly if the topic is. -/
theorem topic_frame_isEmpty (m : Message) :
    m.topic.toUTF8.toList.isEmpty = decide (m.topic = "") := by
  rw [Wire.toList_eq]
  by_cases htopic : m.topic = ""
  · rw [htopic]
    decide
  · have hbytes : m.topic.toUTF8.data.toList ≠ [] := by
      intro hnil
      apply htopic
      have hsize : m.topic.utf8ByteSize = 0 := by
        show m.topic.toUTF8.data.toList.length = 0
        rw [hnil, List.length_nil]
      exact String.utf8ByteSize_eq_zero_iff.1 hsize
    rw [decide_eq_false htopic]
    simpa using hbytes

theorem toBytes_ne_nil (m : Message) : m.toBytes ≠ [] := by
  rw [toBytes_eq]
  exact List.cons_ne_nil _ _

/-- What is left once the empty frames are skipped: both frames, or the second alone if the topic
is empty. -/
theorem dropWhile_delimited (m : Message) (delimiters : Nat) :
    (List.replicate delimiters [] ++ m.toFrames).dropWhile List.isEmpty =
      if m.topic = "" then [m.toBytes] else m.toFrames := by
  have hempty : ∀ frame ∈ List.replicate delimiters ([] : List UInt8), frame.isEmpty = true := by
    intro frame hframe
    rw [List.eq_of_mem_replicate hframe]
    rfl
  have hbytes : m.toBytes.isEmpty = false := by
    rw [List.isEmpty_eq_false_iff]
    exact m.toBytes_ne_nil
  rw [List.dropWhile_append_of_pos hempty, toFrames]
  by_cases htopic : m.topic = ""
  · have hframe : m.topic.toUTF8.toList.isEmpty = true := by
      rw [topic_frame_isEmpty, decide_eq_true htopic]
    rw [if_pos htopic, List.dropWhile_cons_of_pos hframe,
      List.dropWhile_cons_of_neg (by rw [hbytes]; exact Bool.false_ne_true)]
  · have hframe : ¬ m.topic.toUTF8.toList.isEmpty = true := by
      rw [topic_frame_isEmpty, decide_eq_false htopic]
      exact Bool.false_ne_true
    rw [if_neg htopic, List.dropWhile_cons_of_neg hframe]

/-- Under an empty topic only one frame is found. -/
theorem ofFrames_untitled (htopic : m.topic = "") (delimiters : Nat) :
    ofFrames (List.replicate delimiters [] ++ m.toFrames) =
      .error (.transport (.frameCount 1)) := by
  rw [ofFrames, dropWhile_delimited, if_pos htopic]
  rfl

/-- Behind a topic the message is found, as it was written down. -/
theorem ofFrames_titled (h : m.Sendable) (htopic : m.topic ≠ "") (delimiters : Nat) :
    ofFrames (List.replicate delimiters [] ++ m.toFrames) = .ok m.written := by
  rw [ofFrames, dropWhile_delimited, if_neg htopic, toFrames]
  dsimp only
  rw [h.ofBytes?_toBytes]

/-- What comes out of the two frames of a sendable message behind any number of empty frames. It is
the message itself exactly if its topic is not empty and its timestamp can be written. Under a topic
that is not empty it is in any case the message as it was written down. An empty topic passes for a
delimiter, and the reader says that it got one frame. -/
theorem toFrames_read_iff (m : Message) (h : m.Sendable) (delimiters : Nat) :
    (ofFrames (List.replicate delimiters [] ++ m.toFrames) = .ok m ↔
        m.topic ≠ "" ∧ m.timestamp.isWritable = true) ∧
      (m.topic ≠ "" → ofFrames (List.replicate delimiters [] ++ m.toFrames) = .ok m.written) ∧
      (m.topic = "" → ofFrames (List.replicate delimiters [] ++ m.toFrames) =
        .error (.transport (.frameCount 1))) := by
  refine ⟨?_, fun htopic => ofFrames_titled h htopic delimiters,
    fun htopic => ofFrames_untitled htopic delimiters⟩
  by_cases htopic : m.topic = ""
  · rw [ofFrames_untitled htopic]
    refine iff_of_false (fun hread => by cases hread) ?_
    rintro ⟨htitled, -⟩
    exact htitled htopic
  · rw [ofFrames_titled h htopic, Except.ok.injEq, written_eq_self_iff, and_iff_right htopic]

/-- A message with nothing in it but a topic. -/
def titled (topic : String) : Message where
  topic := topic
  sender := { id := 0 }
  payload := []
  timestamp := .epoch
  correlationId := Uuid.nil

/-- A short topic is found behind three delimiters. -/
theorem toFrames_read_iff_titled :
    (titled "a").Sendable ∧ (titled "a").topic ≠ "" ∧
      ofFrames ([[], [], []] ++ (titled "a").toFrames) = .ok (titled "a") := by
  have hlength : (titled "a").topic.toUTF8.toList.length < 0x100000000 :=
    Nat.lt_of_le_of_lt (Text.length_toUTF8_le _) (by decide)
  have hsendable : (titled "a").Sendable := ⟨hlength, by decide, by decide⟩
  have htopic : (titled "a").topic ≠ "" := by decide
  exact ⟨hsendable, htopic,
    (toFrames_read_iff (titled "a") hsendable 3).1.2 ⟨htopic, by decide⟩⟩

/-- Two sendable messages that do not come back, even behind no delimiter: one without a topic, and
one sent in a leap second in the middle of a minute. -/
theorem not_all_read :
    ((titled "").Sendable ∧
        ofFrames (titled "").toFrames = .error (.transport (.frameCount 1))) ∧
      beforeLeapSecond.Sendable ∧ beforeLeapSecond.topic ≠ "" ∧
      ofFrames beforeLeapSecond.toFrames ≠ .ok beforeLeapSecond := by
  have hlength : (titled "").topic.toUTF8.toList.length < 0x100000000 :=
    Nat.lt_of_le_of_lt (Text.length_toUTF8_le _) (by decide)
  have hleap := sendable_beforeLeapSecond
  refine ⟨⟨⟨hlength, by decide, by decide⟩, ofFrames_untitled rfl 0⟩, hleap, by decide, ?_⟩
  have hread : ofFrames beforeLeapSecond.toFrames = .ok beforeLeapSecond.written :=
    ofFrames_titled hleap (by decide) 0
  rw [hread, ne_eq, Except.ok.injEq, written_eq_self_iff]
  decide

end WorkStealing.Message

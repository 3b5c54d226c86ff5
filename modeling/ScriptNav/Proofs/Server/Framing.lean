import ScriptNav.Proofs.Text.Cut
import ScriptNav.Proofs.Text.Numeral
import ScriptNav.Proofs.Text.Trim
import ScriptNav.Server.Frame

/-! Frames on a stream. A payload of any bytes is read back from its frame, whatever follows the
frame, and no more than the frame is consumed. A stream that is cut off anywhere gives the payloads
of the frames that are whole, and then an error. -/
namespace ScriptNav.Server

open Text

/-- The header of a payload by the length that it announces. -/
def header (length : Nat) : Text := "Content-Length: " ++ ofNat length ++ "\r\n\r\n"

/-- The frames of payloads one after another. -/
def stream (payloads : List Text) : Text := payloads.flatMap frame

/-- What begins two texts one after the other has the first one whole, or cuts it off. -/
theorem prefix_append_cases {t front rest : Text} (h : t <+: front ++ rest) :
    (∃ v, t = front ++ v ∧ v <+: rest) ∨ ∃ v, v ≠ [] ∧ front = t ++ v := by
  by_cases hle : front.length ≤ t.length
  · obtain ⟨v, rfl⟩ := List.prefix_of_prefix_length_le (List.prefix_append _ _) h hle
    exact .inl ⟨v, rfl, (List.prefix_append_right_inj _).1 h⟩
  · obtain ⟨v, hv⟩ := List.prefix_of_prefix_length_le h (List.prefix_append _ _) (by omega)
    refine .inr ⟨v, ?_, hv.symm⟩
    rintro rfl
    rw [← hv, List.append_nil] at hle
    exact hle (Nat.le_refl _)

section Header
variable {line t u : Text} {length : Option Nat}

/-- Bytes that end no line are gathered. -/
theorem readHeader_append (hu : newline ∉ u) :
    readHeader line length (u ++ t) = readHeader (u.reverse ++ line) length t := by
  induction u generalizing line with
  | nil => rfl
  | cons b u ih =>
    have hb : (b != newline) = true := bne_iff_ne.2 fun h => hu (by simp [h])
    rw [List.cons_append, readHeader, if_pos hb, ih fun h => hu (List.mem_cons_of_mem _ h)]
    simp

/-- A line without an end is no header. -/
theorem readHeader_open (hu : newline ∉ u) : readHeader line length u = .error .ended := by
  have h : readHeader line length (u ++ []) = _ := readHeader_append hu
  rw [List.append_nil] at h
  rw [h, readHeader]

theorem trim_numeral (n : Nat) : trim (blank :: ofNat n) = ofNat n := by
  have hdigit : ∀ b : UInt8, isDigit b = true → b < 0x80 ∧ isBlankByte b = false := by
    intro b hb
    simp only [isDigit, Bool.and_eq_true, decide_eq_true_eq, UInt8.le_iff_toNat_le,
      UInt8.reduceToNat] at hb
    simp only [UInt8.lt_iff_toNat_lt, UInt8.reduceToNat, isBlankByte, isBlankCode]
    exact ⟨by omega, by simp; omega⟩
  have hnumeral := fun b hb => hdigit b (isDigit_of_mem_ofNat (n := n) b hb)
  have hascii : ∀ b ∈ blank :: ofNat n, b < 0x80 :=
    List.forall_mem_cons.2 ⟨by decide, fun b hb => (hnumeral b hb).1⟩
  rw [trim_cons_blank rfl hascii, trim_eq_self (fun b hb => (hnumeral b hb).1) fun b hb =>
    (hnumeral b hb).2]

/-- A header line gives the length that it was written for. -/
theorem lengthIn_numeral {n : Nat} (h : (n : Int) ≤ payloadLimit) :
    lengthIn ("Content-Length: " ++ ofNat n) = .ok (some n) := by
  have hsplit : ("Content-Length: " : Text) ++ ofNat n =
      ("Content-Length" : Text) ++ colon :: blank :: ofNat n := rfl
  have hname : equalFold (trim ("Content-Length" : Text)) "Content-Length" = true := by decide
  have hlimit : ¬ payloadLimit < (n : Int) := by omega
  rw [hsplit, lengthIn, cut?_append (by decide)]
  rw [payloadLimit] at h
  simp only [hname, trim_numeral, parseInteger_ofNat (show n < 0x8000000000000000 by omega)]
  simp [hlimit]

/-- The bytes of a header up to the end of its only line. -/
def headerLine (n : Nat) : Text := "Content-Length: " ++ ofNat n ++ "\r"

theorem header_eq (n : Nat) : header n = headerLine n ++ newline :: carriage :: [newline] := by
  simp only [header, headerLine, List.append_assoc]
  rfl

theorem newline_notMem_headerLine (n : Nat) : newline ∉ headerLine n := by
  have hnumeral : newline ∉ ofNat n := fun h => absurd (isDigit_of_mem_ofNat _ h) (by decide)
  simp only [headerLine, List.mem_append, not_or]
  exact ⟨⟨by decide, hnumeral⟩, by decide⟩

/-- The line of a header is read for its length, and the rest of the header is still to come. -/
theorem readHeader_headerLine {n : Nat} (h : (n : Int) ≤ payloadLimit) (t : Text) :
    readHeader [] none (headerLine n ++ newline :: t) = readHeader [] (some n) t := by
  have hne : ∀ b ∈ (ofNat n).reverse.head?, (b == carriage) = false := by
    intro b hb
    have hdigit := isDigit_of_mem_ofNat b (List.mem_reverse.1 (List.mem_of_mem_head? hb))
    rw [beq_eq_false_iff_ne]
    rintro rfl
    cases hdigit
  obtain ⟨b, digits, hdigits⟩ : ∃ b digits, (ofNat n).reverse = b :: digits := by
    obtain ⟨b, t, ht, -⟩ := ofNat_eq_cons n
    exact List.exists_cons_of_ne_nil (by simp [ht])
  -- Lines are gathered backwards, so that only the carriage return before the digits is dropped.
  have hcontent : (((headerLine n).reverse ++ []).dropWhile (· == carriage)).reverse =
      "Content-Length: " ++ ofNat n := by
    have hreverse : (headerLine n).reverse =
        carriage :: ((ofNat n).reverse ++ ("Content-Length: " : Text).reverse) := by
      simp only [headerLine, List.reverse_append]
      rfl
    rw [List.append_nil, hreverse, List.dropWhile_cons_of_pos (by rfl), hdigits, List.cons_append,
      List.dropWhile_cons_of_neg (by simp [hne b (by simp [hdigits])]), ← List.cons_append,
      ← hdigits]
    simp
  rw [readHeader_append (newline_notMem_headerLine n), readHeader]
  simp only [hcontent, lengthIn_numeral h]
  rfl

/-- A header announces the length that it was written for. -/
theorem readHeader_header {n : Nat} (h : (n : Int) ≤ payloadLimit) (rest : Text) :
    readHeader [] none (header n ++ rest) = .ok (some n, rest) := by
  rw [header_eq, List.append_assoc, List.cons_append, readHeader_headerLine h]
  rfl

/-- A header that is cut off is none. -/
theorem readHeader_cutOff {n : Nat} (h : (n : Int) ≤ payloadLimit) {t u : Text} (hu : u ≠ [])
    (htu : header n = t ++ u) : readHeader [] none t = .error .ended := by
  have hline : t <+: headerLine n ++ newline :: carriage :: [newline] := by
    rw [← header_eq, htu]
    exact List.prefix_append _ _
  obtain ⟨v, rfl, hv⟩ | ⟨v, -, hv⟩ := prefix_append_cases hline
  · -- The line is whole, and at most its end and a carriage return come after it.
    rw [header_eq, List.append_assoc, List.append_cancel_left_eq] at htu
    rcases v with _ | ⟨b, w⟩
    · rw [List.append_nil]
      exact readHeader_open (newline_notMem_headerLine n)
    · obtain ⟨rfl, hw⟩ := List.cons.inj htu
      have hopen : newline ∉ w := by
        rcases w with _ | ⟨c, _ | ⟨d, w⟩⟩
        · simp
        · obtain ⟨rfl, -⟩ := List.cons.inj hw
          decide
        · simp [hu] at hw
      rw [readHeader_headerLine h]
      exact readHeader_open hopen
  · -- The cut is inside the line.
    have hnot := newline_notMem_headerLine n
    rw [hv, List.mem_append, not_or] at hnot
    exact readHeader_open hnot.1

end Header

section Frame
variable {payload t u : Text}

theorem frame_eq (payload : Text) : frame payload = header payload.length ++ payload := rfl

/-- A payload is read from its frame, and what follows the frame is left. -/
theorem readFrame_frame (h : (payload.length : Int) ≤ payloadLimit) (rest : Text) :
    readFrame (frame payload ++ rest) = .ok (payload, rest) := by
  rw [frame_eq, List.append_assoc, readFrame, readHeader_header h]
  simp

/-- A frame that is cut off gives no payload. -/
theorem readFrame_cutOff (h : (payload.length : Int) ≤ payloadLimit) (hu : u ≠ [])
    (htu : frame payload = t ++ u) :
    readFrame t = .error .ended ∨ readFrame t = .error .cutShort := by
  have hframe : t <+: header payload.length ++ payload := by
    rw [← frame_eq, htu]
    exact List.prefix_append _ _
  obtain ⟨part, rfl, -⟩ | ⟨v, hv, hheader⟩ := prefix_append_cases hframe
  · -- The header is whole, and announces more than is there.
    rw [frame_eq, List.append_assoc, List.append_cancel_left_eq] at htu
    have hshort : ¬ payload.length ≤ part.length := by
      have hlength := congrArg List.length htu
      have hpos := List.length_pos_iff.2 hu
      rw [List.length_append] at hlength
      omega
    rw [readFrame, readHeader_header h]
    simp only [if_neg hshort]
    split <;> simp
  · rw [readFrame, readHeader_cutOff h hv hheader]
    exact .inl rfl

end Frame

section Stream
variable {payload t rest : Text} {payloads : List Text} {e : FrameError}

theorem stream_cons (payload : Text) (payloads : List Text) :
    stream (payload :: payloads) = frame payload ++ stream payloads := by
  rw [stream, List.flatMap_cons, stream]

theorem readFrames_of_error (h : readFrame t = .error e) : readFrames t = ([], e) := by
  rw [readFrames]
  split
  · next he =>
    rw [h] at he
    cases he
    rfl
  · next hok =>
    rw [h] at hok
    cases hok

theorem readFrames_of_ok (h : readFrame t = .ok (payload, rest)) :
    readFrames t = (payload :: (readFrames rest).1, (readFrames rest).2) := by
  rw [readFrames]
  split
  · next he =>
    rw [h] at he
    cases he
  · next hok =>
    rw [h] at hok
    cases hok
    rfl

/-- A stream that is cut off gives the payloads of the frames that are whole. -/
theorem readFrames_cutOff (h : ∀ payload ∈ payloads, (payload.length : Int) ≤ payloadLimit)
    (ht : t <+: stream payloads) :
    ∃ count error, readFrames t = (payloads.take count, error) ∧
      (∀ i, i < count ↔ i < payloads.length ∧ (stream (payloads.take (i + 1))).length ≤ t.length) ∧
      (error = .ended ∨ error = .cutShort) := by
  induction payloads generalizing t with
  | nil =>
    obtain rfl : t = [] := List.prefix_nil.1 ht
    exact ⟨0, .ended, readFrames_of_error rfl, by simp, .inl rfl⟩
  | cons payload payloads ih =>
    rw [List.forall_mem_cons] at h
    rw [stream_cons] at ht
    have hlength : ∀ i, (stream ((payload :: payloads).take (i + 1))).length =
        (frame payload).length + (stream (payloads.take i)).length := by
      intro i
      rw [List.take_succ_cons, stream_cons, List.length_append]
    simp only [hlength, List.length_cons]
    obtain ⟨v, rfl, hv⟩ | ⟨v, hv, hframe⟩ := prefix_append_cases ht
    · -- The first frame is whole, and the payloads behind it are read from what is left.
      obtain ⟨count, error, hread, hcount, herror⟩ := ih h.2 hv
      refine ⟨count + 1, error, ?_, ?_, herror⟩
      · rw [readFrames_of_ok (readFrame_frame h.1 v), hread, List.take_succ_cons]
      · intro i
        rw [List.length_append]
        cases i with
        | zero => simp [stream]
        | succ i =>
          have hi := hcount i
          omega
    · -- The cut is inside the first frame, so that no frame is whole.
      have hshort : t.length < (frame payload).length := by
        have hpos := List.length_pos_iff.2 hv
        rw [hframe, List.length_append]
        omega
      have hcount : ∀ i, i < 0 ↔ i < payloads.length + 1 ∧
          (frame payload).length + (stream (payloads.take i)).length ≤ t.length := by
        intro i
        omega
      rcases readFrame_cutOff h.1 hv hframe with hread | hread
      · exact ⟨0, .ended, readFrames_of_error hread, hcount, .inl rfl⟩
      · exact ⟨0, .cutShort, readFrames_of_error hread, hcount, .inr rfl⟩

/-- A whole stream gives its payloads, and then it ends. -/
theorem readFrames_whole (h : ∀ payload ∈ payloads, (payload.length : Int) ≤ payloadLimit) :
    readFrames (stream payloads) = (payloads, .ended) := by
  induction payloads with
  | nil => exact readFrames_of_error rfl
  | cons payload payloads ih =>
    rw [List.forall_mem_cons] at h
    rw [stream_cons, readFrames_of_ok (readFrame_frame h.1 _), ih h.2]

/-- Framing is lossless and delimits itself. Each payload is read back from its frame, whatever
bytes it holds and whatever follows, and the reading stops where the frame stops; so the frames of
payloads give these payloads and then the end of the input. A stream that is cut off gives exactly
the payloads whose frames lie before the cut, and then an error. -/
theorem readFrames_stream (payloads : List Text)
    (h : ∀ payload ∈ payloads, (payload.length : Int) ≤ payloadLimit) :
    (∀ payload ∈ payloads, ∀ rest, readFrame (frame payload ++ rest) = .ok (payload, rest)) ∧
    readFrames (stream payloads) = (payloads, .ended) ∧
    ∀ t, t <+: stream payloads → t ≠ stream payloads →
      ∃ count error, readFrames t = (payloads.take count, error) ∧
        (∀ i, i < count ↔
          i < payloads.length ∧ (stream (payloads.take (i + 1))).length ≤ t.length) ∧
        (error = .ended ∨ error = .cutShort) :=
  ⟨fun payload hp => readFrame_frame (h payload hp), readFrames_whole h,
    fun _ ht _ => readFrames_cutOff h ht⟩

/-- Payloads that hold line ends and a header of their own, cut off inside the second one. -/
theorem readFrames_stream_fakeHeader :
    let first : Text := "\r\n\r\n"
    let second : Text := "Content-Length: 1\r\n\r\nx"
    let t := frame first ++ (frame second).take 30
    (∀ payload ∈ [first, second], (payload.length : Int) ≤ payloadLimit) ∧
    readFrames (stream [first, second]) = ([first, second], .ended) ∧
    t <+: stream [first, second] ∧ t ≠ stream [first, second] ∧
    ∃ error, readFrames t = ([first], error) := by
  intro first second t
  have hlimit : ∀ payload ∈ [first, second], (payload.length : Int) ≤ payloadLimit := by decide
  have ht : t <+: stream [first, second] := by decide
  have hne : t ≠ stream [first, second] := by decide
  obtain ⟨-, hwhole, hcut⟩ := readFrames_stream [first, second] hlimit
  obtain ⟨count, error, hread, hcount, -⟩ := hcut t ht hne
  have hfirst : 0 < count := (hcount 0).2 (by decide)
  have hsecond : ¬ 1 < count := fun h => absurd ((hcount 1).1 h) (by decide)
  obtain rfl : count = 1 := by omega
  exact ⟨hlimit, hwhole, ht, hne, error, hread⟩

end Stream
end ScriptNav.Server

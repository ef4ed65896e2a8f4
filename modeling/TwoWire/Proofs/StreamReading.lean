import TwoWire.Proofs.Assembly

/-! A stream read as a whole: frames and headers with a length above the bound, one
after the other, and at the end what has come of a frame that is not complete. Feeding
the stream to an assembler byte by byte comes to the same. -/

namespace TwoWire

/-- A stretch of a stream that an assembler is done with at its last byte. -/
inductive Piece where
  | frame (arrival : Arrival)
  | refused (header : Header)
deriving DecidableEq

namespace Piece

def bytes : Piece → List UInt8
  | frame arrival => arrival.bytes
  | refused header => header.bytes

/-- The declared length makes the piece end where it does. -/
def Whole (bound : Nat) : Piece → Prop
  | frame arrival => arrival.Fits bound
  | refused header => bound < header.length.toNat

def outcome (bound : Nat) : Piece → Except ParamFault Arrival
  | frame arrival => .ok arrival
  | refused header => .error (.payloadTooLong header.length.toNat bound)

/-- What each byte of a piece brings: nothing before the last one. -/
def results (bound : Nat) (piece : Piece) : List (Except ParamFault (Option Arrival)) :=
  List.replicate (piece.bytes.length - 1) (.ok none) ++ [(piece.outcome bound).map some]

def arrival? : Piece → Option Arrival
  | frame arrival => some arrival
  | refused _ => none

/-- Cuts a stream into pieces and a rest. Four bytes are a header. Behind one with a
length above the bound the next piece starts at once; behind any other there are so many
bytes of payload. -/
def cut (bound : Nat) : List UInt8 → List Piece × List UInt8
  | source :: destination :: opCode :: length :: rest =>
    let header : Header := ⟨source, destination, opCode, length⟩
    if bound < length.toNat then
      let (pieces, tail) := cut bound rest
      (refused header :: pieces, tail)
    else if length.toNat ≤ rest.length then
      let (pieces, tail) := cut bound (rest.drop length.toNat)
      (frame ⟨header, rest.take length.toNat⟩ :: pieces, tail)
    else ([], header.bytes ++ rest)
  | tail => ([], tail)
termination_by bytes => bytes.length
decreasing_by all_goals simp only [List.length_cons, List.length_drop]; omega

/-- The outcomes of pieces that start at some index of a stream, each with the index of
the byte that brings it. -/
def events (bound : Nat) : Nat → List Piece → List (Nat × Except ParamFault Arrival)
  | _, [] => []
  | start, piece :: rest =>
    (start + (piece.bytes.length - 1), piece.outcome bound) ::
      events bound (start + piece.bytes.length) rest

/-- What each byte of a stream brings that is cut into pieces and a rest. -/
def streamResults (bound : Nat) (cut : List Piece × List UInt8) :
    List (Except ParamFault (Option Arrival)) :=
  cut.1.flatMap (results bound) ++ List.replicate cut.2.length (.ok none)

theorem mem_streamResults {bound : Nat} {cut : List Piece × List UInt8}
    {result : Except ParamFault (Option Arrival)} (h : result ∈ streamResults bound cut) :
    (∃ arrival, result = .ok arrival) ∨
      ∃ header, refused header ∈ cut.1 ∧ result = .error (.payloadTooLong header.length.toNat bound) := by
  rcases List.mem_append.mp h with h | h
  · obtain ⟨piece, hp, h⟩ := List.mem_flatMap.mp h
    rcases List.mem_append.mp h with h | h
    · exact .inl ⟨none, List.eq_of_mem_replicate h⟩
    · rw [List.mem_singleton.mp h]
      cases piece with
      | frame arrival => exact .inl ⟨some arrival, rfl⟩
      | refused header => exact .inr ⟨header, hp, rfl⟩
  · exact .inl ⟨none, List.eq_of_mem_replicate h⟩

theorem length_bytes_pos (piece : Piece) : 0 < piece.bytes.length := by
  cases piece <;> simp only [bytes, Arrival.length_bytes, Header.length_bytes, headerSize] <;> omega

theorem length_results (bound : Nat) (piece : Piece) :
    (piece.results bound).length = piece.bytes.length := by
  have := piece.length_bytes_pos
  simp only [results, List.length_append, List.length_replicate, List.length_singleton]
  omega

theorem cut_append {bound : Nat} {piece : Piece} (h : piece.Whole bound) (rest : List UInt8) :
    cut bound (piece.bytes ++ rest) = (piece :: (cut bound rest).1, (cut bound rest).2) := by
  cases piece with
  | frame arrival =>
    obtain ⟨header, payload⟩ := arrival
    obtain ⟨hlength, hle⟩ := h
    simp only at hlength hle
    simp only [bytes, Arrival.bytes, Header.bytes, List.cons_append, List.nil_append]
    rw [cut, if_neg (by omega), if_pos (by simp only [List.length_append]; omega), hlength,
      List.drop_left, List.take_left]
  | refused header =>
    simp only [Whole] at h
    simp only [bytes, Header.bytes, List.cons_append, List.nil_append]
    rw [cut, if_pos h]

theorem cut_short {bound : Nat} {bytes : List UInt8} (h : bytes.length < headerSize) :
    cut bound bytes = ([], bytes) := by
  match bytes with
  | [] | [_] | [_, _] | [_, _, _] => simp [cut]
  | _ :: _ :: _ :: _ :: _ => simp only [List.length_cons, headerSize] at h; omega

theorem cut_nil (bound : Nat) : cut bound [] = ([], []) :=
  cut_short (Nat.zero_lt_succ _)

theorem cut_partial {bound : Nat} {header : Header} {payload : List UInt8}
    (hle : header.length.toNat ≤ bound) (hlt : payload.length < header.length.toNat) :
    cut bound (header.bytes ++ payload) = ([], header.bytes ++ payload) := by
  simp only [Header.bytes, List.cons_append, List.nil_append]
  rw [cut, if_neg (by omega), if_neg (by omega)]
  rfl

theorem cut_flatMap {bound : Nat} {pieces : List Piece} (h : ∀ piece ∈ pieces, piece.Whole bound)
    (rest : List UInt8) :
    cut bound (pieces.flatMap bytes ++ rest) = (pieces ++ (cut bound rest).1, (cut bound rest).2) := by
  induction pieces with
  | nil => rfl
  | cons piece more ih =>
    rw [List.flatMap_cons, List.append_assoc, cut_append (h piece List.mem_cons_self),
      ih fun p hp => h p (List.mem_cons_of_mem _ hp)]
    rfl

/-- Nothing of a stream is lost and nothing is in two pieces. -/
theorem flatMap_bytes_cut (bound : Nat) (stream : List UInt8) :
    (cut bound stream).1.flatMap bytes ++ (cut bound stream).2 = stream := by
  fun_induction cut bound stream with
  | case1 source destination opCode length rest header above pieces tail hcut ih =>
    rw [hcut] at ih
    simp only [List.flatMap_cons, bytes, Header.bytes, ih, header, List.cons_append,
      List.nil_append]
  | case2 source destination opCode length rest header _ enough pieces tail hcut ih =>
    rw [hcut] at ih
    simp only [List.flatMap_cons, bytes, Arrival.bytes, Header.bytes, List.append_assoc, ih, header,
      List.cons_append, List.nil_append, List.take_append_drop]
  | case3 | case4 => rfl

theorem whole_of_mem_cut {bound : Nat} {stream : List UInt8} {piece : Piece}
    (h : piece ∈ (cut bound stream).1) : piece.Whole bound := by
  fun_induction cut bound stream with
  | case1 source destination opCode length rest header above pieces tail hcut ih =>
    rw [hcut] at ih
    rcases List.mem_cons.mp h with rfl | h
    · exact above
    · exact ih h
  | case2 source destination opCode length rest header notAbove enough pieces tail hcut ih =>
    rw [hcut] at ih
    rcases List.mem_cons.mp h with rfl | h
    · simp only [Whole, Arrival.Fits, List.length_take, header]
      omega
    · exact ih h
  | case3 | case4 => simp at h

end Piece

namespace Assembler

def feedAll : List UInt8 → Assembler → List (Except ParamFault (Option Arrival)) × Assembler
  | [], a => ([], a)
  | byte :: rest, a =>
    let (result, a) := a.feed byte
    let (results, a) := a.feedAll rest
    (result :: results, a)

theorem feedAll_concat (bytes : List UInt8) (byte : UInt8) (a : Assembler) :
    a.feedAll (bytes ++ [byte]) =
      let fed := a.feedAll bytes
      (fed.1 ++ [(fed.2.feed byte).1], (fed.2.feed byte).2) := by
  induction bytes generalizing a with
  | nil => rfl
  | cons first rest ih => simp [feedAll, ih]

theorem length_feedAll (bytes : List UInt8) (a : Assembler) :
    (a.feedAll bytes).1.length = bytes.length := by
  induction bytes generalizing a with
  | nil => rfl
  | cons byte rest ih => simp [feedAll, ih]

def occurrence? : Except ParamFault (Option Arrival) → Option (Except ParamFault Arrival)
  | .ok none => none
  | .ok (some arrival) => some (.ok arrival)
  | .error fault => some (.error fault)

/-- All that was brought, each with the index of its byte, the first of which is given. -/
def occurrences (start : Nat) (results : List (Except ParamFault (Option Arrival))) :
    List (Nat × Except ParamFault Arrival) :=
  (results.zipIdx start).filterMap fun (result, i) => (occurrence? result).map (i, ·)

theorem occurrences_append (start : Nat) (xs ys : List (Except ParamFault (Option Arrival))) :
    occurrences start (xs ++ ys) = occurrences start xs ++ occurrences (start + xs.length) ys := by
  simp [occurrences, List.zipIdx_append, List.filterMap_append]

theorem occurrences_replicate (start n : Nat) :
    occurrences start (List.replicate n (.ok none)) = [] := by
  induction n generalizing start with
  | zero => rfl
  | succ n ih => simpa [occurrences, List.replicate_succ, occurrence?] using ih (start + 1)

theorem occurrence?_outcome (bound : Nat) (piece : Piece) :
    occurrence? ((piece.outcome bound).map some) = some (piece.outcome bound) := by
  cases piece <;> rfl

theorem occurrences_results (bound start : Nat) (piece : Piece) :
    occurrences start (piece.results bound) =
      [(start + (piece.bytes.length - 1), piece.outcome bound)] := by
  rw [Piece.results, occurrences_append, occurrences_replicate, List.length_replicate]
  simp [occurrences, occurrence?_outcome]

theorem occurrences_flatMap (bound start : Nat) (pieces : List Piece) :
    occurrences start (pieces.flatMap (Piece.results bound)) = Piece.events bound start pieces := by
  induction pieces generalizing start with
  | nil => rfl
  | cons piece rest ih =>
    rw [List.flatMap_cons, occurrences_append, occurrences_results, Piece.length_results, ih]
    rfl

def completed (results : List (Except ParamFault (Option Arrival))) : List Arrival :=
  results.filterMap fun
    | .ok arrival => arrival
    | .error _ => none

def refusals (results : List (Except ParamFault (Option Arrival))) : Nat :=
  results.countP (!·.toBool)

theorem completed_append (xs ys : List (Except ParamFault (Option Arrival))) :
    completed (xs ++ ys) = completed xs ++ completed ys :=
  List.filterMap_append

theorem completed_cons (x : Except ParamFault (Option Arrival))
    (xs : List (Except ParamFault (Option Arrival))) :
    completed (x :: xs) = completed [x] ++ completed xs :=
  completed_append [x] xs

theorem completed_replicate (n : Nat) : completed (List.replicate n (.ok none)) = [] := by
  simp [completed]

theorem refusals_append (xs ys : List (Except ParamFault (Option Arrival))) :
    refusals (xs ++ ys) = refusals xs + refusals ys :=
  List.countP_append

theorem refusals_cons (x : Except ParamFault (Option Arrival))
    (xs : List (Except ParamFault (Option Arrival))) :
    refusals (x :: xs) = refusals [x] + refusals xs :=
  refusals_append [x] xs

theorem refusals_replicate (n : Nat) : refusals (List.replicate n (.ok none)) = 0 := by
  simp [refusals, List.countP_replicate, Except.toBool]

theorem completed_streamResults (bound : Nat) (cut : List Piece × List UInt8) :
    completed (Piece.streamResults bound cut) = cut.1.filterMap Piece.arrival? := by
  obtain ⟨pieces, tail⟩ := cut
  rw [Piece.streamResults, completed_append, completed_replicate, List.append_nil]
  induction pieces with
  | nil => rfl
  | cons piece rest ih =>
    rw [List.flatMap_cons, Piece.results, completed_append, completed_append, completed_replicate, ih]
    cases piece <;> rfl

theorem refusals_streamResults (bound : Nat) (cut : List Piece × List UInt8) :
    refusals (Piece.streamResults bound cut) = cut.1.countP (·.arrival?.isNone) := by
  obtain ⟨pieces, tail⟩ := cut
  rw [Piece.streamResults, refusals_append, refusals_replicate, Nat.add_zero]
  induction pieces with
  | nil => rfl
  | cons piece rest ih =>
    rw [List.flatMap_cons, Piece.results, refusals_append, refusals_append, refusals_replicate, ih,
      List.countP_cons, Nat.add_comm]
    cases piece <;> simp [refusals, Piece.outcome, Piece.arrival?, Except.map, Except.toBool]

theorem Sound.cut_pending {a : Assembler} (h : a.Sound) :
    Piece.cut a.bound a.pending = ([], a.pending) := by
  cases hp : a.phase with
  | payload =>
    have hlt := h.cursor_lt hp
    simp only [pending, hp]
    exact Piece.cut_partial (h.length_le hp) (by simp only [List.length_take]; omega)
  | source | destination | opCode | length => exact Piece.cut_short (by simp [pending, hp, headerSize])

/-- Feeding goes on from the frame in progress as if its bytes were fed with the rest. -/
theorem Sound.feedAll {a : Assembler} (h : a.Sound) (bytes : List UInt8) :
    let cut := Piece.cut a.bound (a.pending ++ bytes)
    let fed := a.feedAll bytes
    List.replicate a.pending.length (.ok none) ++ fed.1 = Piece.streamResults a.bound cut ∧
      fed.2.pending = cut.2 ∧ fed.2.Sound ∧ fed.2.bound = a.bound := by
  induction bytes generalizing a with
  | nil => simp [Assembler.feedAll, h.cut_pending, Piece.streamResults, h]
  | cons byte rest ih =>
    -- A byte that ends a piece: what was in progress and this byte are the piece.
    have ended {a' : Assembler} (piece : Piece) (whole : piece.Whole a.bound)
        (bytes_eq : piece.bytes = a.pending ++ [byte]) (sound : a'.Sound)
        (bound_eq : a'.bound = a.bound) (idle : a'.phase = .source) :
        let cut := Piece.cut a.bound (a.pending ++ byte :: rest)
        let fed := a'.feedAll rest
        List.replicate a.pending.length (.ok none) ++ (piece.outcome a.bound).map some :: fed.1 =
            Piece.streamResults a.bound cut ∧
          fed.2.pending = cut.2 ∧ fed.2.Sound ∧ fed.2.bound = a.bound := by
      have hh := ih sound
      have hlength : piece.bytes.length - 1 = a.pending.length := by simp [bytes_eq]
      simp only [pending_of_idle idle, bound_eq, List.nil_append, List.length_nil,
        List.replicate_zero] at hh
      rw [List.append_cons, ← bytes_eq, Piece.cut_append whole]
      simp only [Piece.streamResults, List.flatMap_cons, Piece.results, hlength,
        List.append_assoc] at hh ⊢
      exact ⟨by rw [hh.1]; rfl, hh.2⟩
    have hfed := h.feed byte
    simp only [Assembler.feedAll]
    generalize a.feed byte = fed at hfed
    cases hfed with
    | more sound bound_eq pending_eq =>
      have hh := ih sound
      simp only [pending_eq, bound_eq, List.length_append, List.length_singleton,
        List.replicate_succ', List.append_assoc, List.singleton_append] at hh
      exact hh
    | frame sound bound_eq idle fits bytes_eq =>
      exact ended (.frame _) fits bytes_eq sound bound_eq idle
    | refused sound bound_eq idle above bytes_eq =>
      exact ended (.refused _) above bytes_eq sound bound_eq idle

/-- From between two frames each byte of a stream brings what it brings in the stream
cut into pieces, and the rest is left in progress. -/
theorem Sound.feedAll_of_idle {a : Assembler} (h : a.Sound) (idle : a.phase = .source)
    (bytes : List UInt8) :
    let cut := Piece.cut a.bound bytes
    let fed := a.feedAll bytes
    fed.1 = Piece.streamResults a.bound cut ∧ fed.2.pending = cut.2 ∧ fed.2.Sound ∧
      fed.2.bound = a.bound := by
  simpa [pending_of_idle idle] using h.feedAll bytes

theorem Reachable.feedAll {bound : Nat} {a : Assembler} (h : a.Reachable bound)
    (bytes : List UInt8) : (a.feedAll bytes).2.Reachable bound := by
  induction bytes generalizing a with
  | nil => exact h
  | cons byte rest ih => exact ih (h.feed byte)

/-- An assembler reads a stream as cutting it into pieces does. Which frames and which
faults come of it, and at which bytes, does not depend on what the assembler did before,
and its phase and count are those of the rest. -/
theorem occurrences_feedAll {bound : Nat} {a : Assembler} (h : a.Reachable bound)
    (idle : a.phase = .source) (stream : List UInt8) :
    let cut := Piece.cut (min bound payloadLimit) stream
    let fed := a.feedAll stream
    occurrences 0 fed.1 = Piece.events (min bound payloadLimit) 0 cut.1 ∧
      (fed.2.phase, fed.2.cursor) = progress cut.2 := by
  have hh := h.sound.feedAll_of_idle idle stream
  rw [h.bound_eq] at hh
  obtain ⟨hresults, hpending, hsound, -⟩ := hh
  constructor
  · rw [hresults, Piece.streamResults, occurrences_append, occurrences_flatMap,
      occurrences_replicate, List.append_nil]
  · rw [← hpending, hsound.progress_pending]

/-- A stream with an empty frame, a refused header, a full frame and a part of one, after
another frame and another refusal. -/
theorem occurrences_feedAll_after_refusal :
    let a := ((withBound 2).feedAll [1, 2, 3, 2, 9, 9, 1, 2, 3, 7]).2
    let fed := a.feedAll [5, 6, 7, 0, 5, 6, 7, 3, 5, 6, 7, 2, 8, 4, 1, 2, 3, 2, 4]
    a.Reachable 2 ∧ a.phase = .source ∧
      occurrences 0 fed.1 =
        [(3, .ok ⟨⟨5, 6, 7, 0⟩, []⟩), (7, .error (.payloadTooLong 3 2)),
          (13, .ok ⟨⟨5, 6, 7, 2⟩, [8, 4]⟩)] ∧
      (fed.2.phase, fed.2.cursor) = (.payload, 1) := by
  have hr : Reachable 2 ((withBound 2).feedAll [1, 2, 3, 2, 9, 9, 1, 2, 3, 7]).2 :=
    Reachable.fresh.feedAll _
  have hh := occurrences_feedAll hr rfl
    [5, 6, 7, 0, 5, 6, 7, 3, 5, 6, 7, 2, 8, 4, 1, 2, 3, 2, 4]
  have hbound : min 2 payloadLimit = 2 := rfl
  refine ⟨hr, rfl, ?_, ?_⟩
  · rw [hh.1]
    simp [Piece.cut, Piece.events, Piece.outcome, Piece.bytes, Arrival.bytes, Header.bytes, hbound]
  · rw [hh.2]
    simp [Piece.cut, progress, Header.bytes, hbound]

end Assembler

end TwoWire

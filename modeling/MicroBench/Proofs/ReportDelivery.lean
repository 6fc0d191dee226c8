import Mathlib.Data.Nat.Notation
import MicroBench.Report.Sink

namespace MicroBench.Proofs.ReportDelivery

open Sink

variable {ε : Type} {s t : Sink ε} {bytes : List UInt8} {cap before j : ℕ} {refusal : Refusal ε}

/-- What a sink can still take in all. -/
def left (s : Sink ε) : ℕ := s.cap - s.taken.length

/-- The sink after it took what it could of `bytes`, and with `calls` calls counted. -/
def fed (s : Sink ε) (bytes : List UInt8) (calls : ℕ) : Sink ε :=
  { s with calls := calls, taken := s.taken ++ bytes.take (left s) }

def verdict (s : Sink ε) (count : ℕ) : Except (WriteError ε) Unit :=
  if count ≤ left s then .ok () else .error s.refusal.error

theorem left_fed (s : Sink ε) (bytes : List UInt8) (calls : ℕ) :
    left (fed s bytes calls) = left s - bytes.length := by
  simp only [left, fed, List.length_append, List.length_take]
  omega

theorem fed_fed (s : Sink ε) (bytes more : List UInt8) (calls calls' : ℕ) :
    fed (fed s bytes calls) more calls' = fed s (bytes ++ more) calls' := by
  rw [fed, left_fed]
  simp only [fed, List.take_append, List.append_assoc]

theorem fed_append_of_full (h : left s ≤ bytes.length) (more : List UInt8) (calls : ℕ) :
    fed s (bytes ++ more) calls = fed s bytes calls := by
  rw [fed, List.take_append_of_le_length h, fed]

theorem verdict_fed (h : bytes.length ≤ left s) (calls count : ℕ) :
    verdict (fed s bytes calls) count = verdict s (bytes.length + count) := by
  have hcount : count ≤ left s - bytes.length ↔ bytes.length + count ≤ left s := by omega
  simp only [verdict, left_fed, hcount]
  rfl

theorem room_eq_zero_iff (hchunk : 1 ≤ s.chunk) : s.room = 0 ↔ left s = 0 := by
  rw [room, ← left]
  omega

/-- What a call that offers `bytes` comes to. -/
def Outcome (s : Sink ε) (bytes : List UInt8) : Answer ε → Sink ε → Prop
  | .interrupted, t => t = fed s [] (s.calls + 1)
  | .refused error, t =>
    left s = 0 ∧ error = s.refusal.error ∧ t = fed s [] (s.calls + 1)
  | .took 0, t =>
    left s = 0 ∧ .wroteNothing = s.refusal.error ∧ t = fed s [] (s.calls + 1)
  | .took (count + 1), t =>
    count + 1 ≤ left s ∧ count + 1 ≤ bytes.length ∧ t = fed s (bytes.take (count + 1)) (s.calls + 1)

theorem outcome_write {answer : Answer ε} (hchunk : 1 ≤ s.chunk) (hbytes : bytes ≠ [])
    (h : s.write bytes = (answer, t)) : Outcome s bytes answer t := by
  have hlength := List.length_pos_iff.2 hbytes
  have hfull := room_eq_zero_iff hchunk
  have hcalled : { s with calls := s.calls + 1 } = fed s [] (s.calls + 1) := by simp [fed]
  unfold write at h
  split at h
  · obtain ⟨rfl, rfl⟩ := Prod.mk.inj h
    exact hcalled
  split at h
  · rename_i hnone hrefusal
    obtain ⟨rfl, rfl⟩ := Prod.mk.inj h
    exact ⟨hfull.1 (by omega), by rw [hrefusal]; rfl, hcalled⟩
  · rename_i hnone _
    obtain ⟨rfl, rfl⟩ := Prod.mk.inj h
    exact ⟨hfull.1 (by omega), rfl, hcalled⟩
  · rename_i hsome _
    obtain ⟨rfl, rfl⟩ := Prod.mk.inj h
    obtain ⟨count, hcount⟩ := Nat.exists_eq_succ_of_ne_zero hsome
    have hroom : s.room ≤ left s := Nat.min_le_right _ _
    have hle : count + 1 ≤ left s := by omega
    rw [hcount]
    exact ⟨hle, by omega, by rw [fed, List.take_take, Nat.min_eq_right hle]⟩

theorem verdict_of_full (hfull : left s = 0) (hbytes : bytes ≠ []) :
    verdict s bytes.length = .error s.refusal.error := by
  have hlength := List.length_pos_iff.2 hbytes
  exact if_neg (by omega)

theorem fed_of_full (hfull : left s = 0) (bytes : List UInt8) (calls : ℕ) :
    fed s [] calls = fed s bytes calls := by
  simp [fed, hfull]

/-- Neither the size of the pieces taken nor the interruptions show in what becomes of a text,
but for the number of calls. -/
theorem writeAll_eq (hchunk : 1 ≤ s.chunk) (bytes : List UInt8) :
    ∃ calls, s.writeAll bytes = (verdict s bytes.length, fed s bytes calls) := by
  -- on the loop: what one call took and what the calls after it take make up a longer prefix
  fun_induction writeAll bytes s with
  | case1 bytes s hempty =>
    obtain rfl := List.isEmpty_iff.1 hempty
    exact ⟨s.calls, by simp [verdict, fed]⟩
  | case2 bytes s hempty t hwrite ih =>
    have hbytes : bytes ≠ [] := mt List.isEmpty_iff.2 hempty
    obtain rfl := outcome_write hchunk hbytes hwrite
    obtain ⟨calls, hrest⟩ := ih hchunk
    refine ⟨calls, ?_⟩
    rw [hrest, verdict_fed (Nat.zero_le _), fed_fed, List.nil_append, List.length_nil, Nat.zero_add]
  | case3 bytes s hempty error t hwrite =>
    have hbytes : bytes ≠ [] := mt List.isEmpty_iff.2 hempty
    obtain ⟨hfull, rfl, rfl⟩ := outcome_write hchunk hbytes hwrite
    exact ⟨_, by rw [verdict_of_full hfull hbytes, fed_of_full hfull bytes]⟩
  | case4 bytes s hempty t hwrite =>
    have hbytes : bytes ≠ [] := mt List.isEmpty_iff.2 hempty
    obtain ⟨hfull, herror, rfl⟩ := outcome_write hchunk hbytes hwrite
    exact ⟨_, by rw [verdict_of_full hfull hbytes, fed_of_full hfull bytes, herror]⟩
  | case5 bytes s hempty count t hwrite ih =>
    have hbytes : bytes ≠ [] := mt List.isEmpty_iff.2 hempty
    obtain ⟨hleft, hlength, rfl⟩ := outcome_write hchunk hbytes hwrite
    have htaken : (bytes.take (count + 1)).length = count + 1 := List.length_take_of_le hlength
    obtain ⟨calls, hrest⟩ := ih hchunk
    refine ⟨calls, ?_⟩
    rw [hrest, verdict_fed (by omega), fed_fed, List.take_append_drop, ← List.length_append,
      List.take_append_drop]

theorem writeLines_eq (hchunk : 1 ≤ s.chunk) (pieces : List (List UInt8)) :
    ∃ calls, s.writeLines pieces =
      (verdict s pieces.flatten.length, fed s pieces.flatten calls) := by
  induction pieces generalizing s with
  | nil => exact ⟨s.calls, by simp [writeLines, verdict, fed]⟩
  | cons piece pieces ih =>
    obtain ⟨calls, hpiece⟩ := writeAll_eq hchunk piece
    rw [writeLines, hpiece, List.flatten_cons, List.length_append]
    rcases Nat.lt_or_ge (left s) piece.length with hcut | hfits
    · have herror : verdict s piece.length = .error s.refusal.error := if_neg (by omega)
      have herror' : verdict s (piece.length + pieces.flatten.length) =
          .error s.refusal.error := if_neg (by omega)
      exact ⟨calls, by rw [herror, herror', fed_append_of_full (Nat.le_of_lt hcut)]⟩
    · have hok : verdict s piece.length = .ok () := if_pos hfits
      obtain ⟨calls', hrest⟩ := @ih (fed s piece calls) hchunk
      refine ⟨calls', ?_⟩
      rw [hok, ← verdict_fed hfits calls, ← fed_fed]
      exact hrest

theorem bytes_eq_flatMap (r : Report) : r.bytes = r.text.toList.flatMap String.utf8EncodeChar := by
  rw [Report.text, String.toList_join, List.flatMap_assoc]
  rfl

theorem bytes_eq_text (r : Report) : r.bytes = r.text.toUTF8.data.toList := by
  have htext : r.text.toByteArray = r.text.toList.utf8Encode := by
    rw [← String.toByteArray_ofList, String.ofList_toList]
  rw [bytes_eq_flatMap, String.toUTF8, htext, List.utf8Encode, List.data_toByteArray]

theorem bytes_ne_nil (r : Report) : r.bytes ≠ [] := by
  have htext : r.text ≠ "" := by
    cases r <;> simp [Report.text, Report.lines, String.join]
  obtain ⟨c, hc⟩ := List.exists_mem_of_ne_nil _ (mt String.toList_eq_nil_iff.1 htext)
  rw [bytes_eq_flatMap, Ne, List.flatMap_eq_nil_iff]
  intro hnone
  exact String.utf8EncodeChar_ne_nil (hnone c hc)

theorem deliver_eq (hchunk : 1 ≤ s.chunk) (r : Report) : ∃ calls, r.deliver s =
    (⟨verdict s r.bytes.length, r.bytes.take (left s)⟩, fed s r.bytes calls) := by
  obtain ⟨calls, hlines⟩ := writeLines_eq hchunk r.lineBytes
  refine ⟨calls, ?_⟩
  rw [Report.deliver, hlines]
  simp [fed, Report.bytes]

/-- How a report arrives in a sink of `cap` bytes to which `before` bytes were offered before. -/
def arrival (cap : ℕ) (refusal : Refusal ε) (before : ℕ) (r : Report) : Delivery ε where
  outcome := if before + r.bytes.length ≤ cap then .ok () else .error refusal.error
  written := r.bytes.take (cap - before)

def arrivals (cap : ℕ) (refusal : Refusal ε) : ℕ → List Report → List (Delivery ε)
  | _, [] => []
  | before, r :: rs =>
    arrival cap refusal before r :: arrivals cap refusal (before + r.bytes.length) rs

theorem arrival_eq (hleft : left s = s.cap - before) (r : Report) :
    arrival s.cap s.refusal before r = ⟨verdict s r.bytes.length, r.bytes.take (left s)⟩ := by
  have hlength := List.length_pos_iff.2 (bytes_ne_nil r)
  have hfits : before + r.bytes.length ≤ s.cap ↔ r.bytes.length ≤ left s := by omega
  simp only [arrival, verdict, hfits, hleft]

theorem outcome_arrival (cap : ℕ) (refusal : Refusal ε) (before : ℕ) (r : Report) :
    ((arrival cap refusal before r).outcome = .ok () ↔ before + r.bytes.length ≤ cap) ∧
    ((arrival cap refusal before r).outcome ≠ .ok () →
      (arrival cap refusal before r).outcome = .error refusal.error) := by
  by_cases hfits : before + r.bytes.length ≤ cap <;> simp [arrival, hfits]

def stream (reports : List Report) : List UInt8 := reports.flatMap Report.bytes

theorem length_stream_take_succ {reports : List Report} {r : Report} (hr : reports[j]? = some r) :
    (stream (reports.take (j + 1))).length =
      (stream (reports.take j)).length + r.bytes.length := by
  rw [List.take_add_one, hr]
  simp [stream]

theorem deliverAll_eq (hchunk : 1 ≤ s.chunk) (hleft : left s = s.cap - before)
    (reports : List Report) : ∃ calls, Report.deliverAll reports s =
      (arrivals s.cap s.refusal before reports, fed s (stream reports) calls) := by
  induction reports generalizing s before with
  | nil => exact ⟨s.calls, by simp [Report.deliverAll, arrivals, fed, stream]⟩
  | cons r rs ih =>
    obtain ⟨calls, hfirst⟩ := deliver_eq hchunk r
    have hleft' : left (fed s r.bytes calls) = s.cap - (before + r.bytes.length) := by
      rw [left_fed, hleft]
      omega
    obtain ⟨calls', hrest⟩ := ih (s := fed s r.bytes calls) hchunk hleft'
    refine ⟨calls', ?_⟩
    rw [Report.deliverAll, hfirst]
    simp only [hrest, arrivals, arrival_eq hleft, fed_fed]
    rfl

theorem getElem?_arrivals (cap : ℕ) (refusal : Refusal ε) (before : ℕ) (reports : List Report)
    (j : ℕ) : (arrivals cap refusal before reports)[j]? =
      reports[j]?.map (arrival cap refusal (before + (stream (reports.take j)).length)) := by
  induction reports generalizing before j with
  | nil => rfl
  | cons r rs ih =>
    cases j with
    | zero => simp [arrivals, stream]
    | succ j => simp [arrivals, ih, stream, Nat.add_assoc]

theorem length_arrivals (cap : ℕ) (refusal : Refusal ε) (before : ℕ) (reports : List Report) :
    (arrivals cap refusal before reports).length = reports.length := by
  induction reports generalizing before with
  | nil => rfl
  | cons r rs ih => rw [arrivals, List.length_cons, ih, List.length_cons]

/-- Reports written to a sink one after another, also after errors, are cut at its cap: it takes
what of their texts lies below the cap, each report adds its own part of that, and those that end
above it are in error. The size of the pieces that the sink takes and its interruptions make no
difference, nor do the places where a text is cut before it is handed on. -/
theorem deliveries_cut_at_cap (reports : List Report) (cap : ℕ) (refusal : Refusal ε) {chunk : ℕ}
    (hchunk : 1 ≤ chunk) (nervous : Bool) :
    (∀ r : Report, r.bytes = r.text.toUTF8.data.toList) ∧
    ∃ deliveries sink,
      Report.deliverAll reports { cap, chunk, nervous, refusal } = (deliveries, sink) ∧
      sink.taken = (stream reports).take (min cap (stream reports).length) ∧
      deliveries.length = reports.length ∧
      (∀ j r, reports[j]? = some r → ∃ delivery, deliveries[j]? = some delivery ∧
        (delivery.outcome = .ok () ↔ (stream (reports.take (j + 1))).length ≤ cap) ∧
        (delivery.outcome ≠ .ok () → delivery.outcome = .error refusal.error) ∧
        delivery.written = r.bytes.take (cap - (stream (reports.take j)).length)) ∧
      (∀ chunk' nervous', 1 ≤ chunk' → ∃ sink',
        Report.deliverAll reports { cap, chunk := chunk', nervous := nervous', refusal } =
          (deliveries, sink') ∧ sink'.taken = sink.taken) ∧
      ∀ (s : Sink ε) (r : Report) (pieces : List (List UInt8)), 1 ≤ s.chunk →
        pieces.flatten = r.bytes → (s.writeLines pieces).1 = (s.writeLines r.lineBytes).1 ∧
          (s.writeLines pieces).2.taken = (s.writeLines r.lineBytes).2.taken := by
  have hempty (chunk : ℕ) (nervous : Bool) :
      left { cap, chunk, nervous, refusal } = cap - 0 := rfl
  obtain ⟨calls, hrun⟩ := deliverAll_eq (s := { cap, chunk, nervous, refusal }) hchunk
    (hempty chunk nervous) reports
  refine ⟨bytes_eq_text, _, _, hrun, ?_, length_arrivals cap refusal 0 reports, ?_, ?_, ?_⟩
  · rw [← List.take_eq_take_min]
    rfl
  · intro j r hr
    obtain ⟨hok, herror⟩ :=
      outcome_arrival cap refusal (0 + (stream (reports.take j)).length) r
    refine ⟨_, by rw [getElem?_arrivals, hr, Option.map_some], ?_, herror, ?_⟩
    · rw [hok, length_stream_take_succ hr, Nat.zero_add]
    · rw [arrival, Nat.zero_add]
  · intro chunk' nervous' hchunk'
    obtain ⟨calls', hrun'⟩ :=
      deliverAll_eq (s := { cap, chunk := chunk', nervous := nervous', refusal }) hchunk'
        (hempty chunk' nervous') reports
    exact ⟨_, hrun', rfl⟩
  · intro s r pieces hs hpieces
    obtain ⟨calls, hcut⟩ := writeLines_eq hs pieces
    obtain ⟨calls', hlines⟩ := writeLines_eq hs r.lineBytes
    rw [hpieces] at hcut
    rw [hcut, hlines]
    exact ⟨rfl, rfl⟩

theorem deliveries_cut_at_cap_two : 1 ≤ 3 ∧ ∃ deliveries sink,
    Report.deliverAll [.flips (-7) 4 3, .fibonacci 55 "1.5"]
      { cap := 25, chunk := 3, nervous := true, refusal := .fails "full" } = (deliveries, sink) ∧
    sink.taken.length = 25 ∧
    ∃ delivery, deliveries[1]? = some delivery ∧ delivery.outcome = .error (.given "full") ∧
      delivery.written = [53, 53, 10, 101] := by
  have hchunk : 1 ≤ 3 := by decide
  obtain ⟨-, deliveries, sink, hrun, htaken, -, hdelivery, -⟩ :=
    deliveries_cut_at_cap [.flips (-7) 4 3, .fibonacci 55 "1.5"] 25
      (.fails "full") hchunk true
  obtain ⟨delivery, hsecond, hok, herror, hwritten⟩ := hdelivery 1 _ rfl
  refine ⟨hchunk, deliveries, sink, hrun, ?_, delivery, hsecond, herror (mt hok.1 ?_), ?_⟩
  · rw [htaken]
    cbv
  · cbv
  · rw [hwritten]
    cbv

end MicroBench.Proofs.ReportDelivery

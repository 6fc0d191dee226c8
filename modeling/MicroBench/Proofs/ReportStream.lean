import MicroBench.Proofs.ReportDelivery
import MicroBench.Report.Reader

namespace MicroBench.Proofs.ReportStream

open Decimal Report ReportDelivery

variable {r : Report} {seconds : String} {text rest : List Char} {reports : List Report}

theorem readWord_append (word : String) (rest : List Char) :
    readWord word (word.toList ++ rest) = some rest := readWord_eq_some_iff.2 rfl

theorem readTime_append {c : Char} (h : IsTime seconds) (hc : showsTime c = false) :
    readTime (seconds.toList ++ c :: rest) = some (seconds, c :: rest) := by
  obtain ⟨hempty, hshown⟩ := h
  obtain ⟨htake, hdrop⟩ := span_append hshown hc rest
  rw [readTime, htake, hdrop]
  split
  · rename_i hnil
    exact absurd (String.toList_eq_nil_iff.1 hnil) hempty
  · rename_i d ds hds
    rw [← hds, String.ofList_toList]

theorem readFlips_append (checksum : Int) (size maxFlips : ℕ) (rest : List Char) :
    readFlips checksum ("\nfannkuchen(".toList ++ (digits size ++ (") = ".toList ++
      (digits maxFlips ++ ("\n".toList ++ rest))))) =
        some (flips checksum size maxFlips, rest) := by
  have hsize (rest : List Char) : readNatural (digits size ++ (") = ".toList ++ rest)) =
      some (size, ") = ".toList ++ rest) := readNatural_append rfl
  have hflips : readNatural (digits maxFlips ++ ("\n".toList ++ rest)) =
      some (maxFlips, "\n".toList ++ rest) := readNatural_append rfl
  simp only [readFlips, readWord_append, hsize, hflips, Option.bind_eq_bind, Option.bind_some,
    Option.pure_def]

theorem readFibonacci_append (value : ℕ) (h : IsTime seconds) (rest : List Char) :
    readFibonacci value ("\nelapsed: ".toList ++ (seconds.toList ++ ("\n".toList ++ rest))) =
      some (fibonacci value seconds, rest) := by
  have htime : readTime (seconds.toList ++ ("\n".toList ++ rest)) =
      some (seconds, "\n".toList ++ rest) := readTime_append h rfl
  simp only [readFibonacci, readWord_append, htime, Option.bind_eq_bind, Option.bind_some,
    Option.pure_def]

/-- The second lines differ in their first letter, so neither is taken for the other. -/
theorem readFlips_elapsed (x : Int) (rest : List Char) :
    readFlips x ("\nelapsed: ".toList ++ rest) = none := rfl

/-- Whatever follows a report, it is read as it was written. -/
theorem readOne_append (h : r.Legible) (rest : List Char) :
    readOne (r.text.toList ++ rest) = some (r, rest) := by
  cases r with
  | flips checksum size maxFlips =>
    have hfirst (rest : List Char) :
        readInteger ((toString checksum).toList ++ ("\nfannkuchen(".toList ++ rest)) =
          some (checksum, "\nfannkuchen(".toList ++ rest) := readInteger_append rfl
    have hsecond := readFlips_append checksum size maxFlips rest
    rw [text_flips]
    simp only [List.append_assoc, readOne, hfirst, Option.bind_eq_bind, Option.bind_some]
    cases checksum with
    | negSucc k => exact hsecond
    | ofNat k => simp only [hsecond, Option.some_or]
  | fibonacci value seconds =>
    have hfirst (rest : List Char) :
        readInteger ((toString (Int.ofNat value)).toList ++ ("\nelapsed: ".toList ++ rest)) =
          some (Int.ofNat value, "\nelapsed: ".toList ++ rest) := readInteger_append rfl
    have hsecond := readFibonacci_append value h rest
    rw [text_fibonacci]
    simp only [List.append_assoc, readOne, hfirst, Option.bind_eq_bind, Option.bind_some]
    rw [readFlips_elapsed, hsecond, Option.none_or]

theorem readAll_append (h : r.Legible) (rest : List Char) :
    readAll (r.text.toList ++ rest) = (readAll rest).map (r :: ·) := by
  have hempty : ¬ (r.text.toList ++ rest).isEmpty = true := by
    simp [List.isEmpty_iff, text_ne_nil r]
  have hfirst := readOne_append h rest
  rw [readAll, if_neg hempty]
  split
  · rename_i hnone
    rw [hfirst] at hnone
    cases hnone
  · rename_i r' rest' hsome
    rw [hfirst] at hsome
    obtain ⟨rfl, rfl⟩ := Prod.mk.inj (Option.some.inj hsome)
    rfl

theorem readAll_texts (h : ∀ r ∈ reports, r.Legible) :
    readAll (reports.flatMap fun r ↦ r.text.toList) = some reports := by
  induction reports with
  | nil =>
    rw [readAll]
    rfl
  | cons r rs ih =>
    have hrest := ih fun r' hr' ↦ h r' (List.mem_cons_of_mem _ hr')
    rw [List.flatMap_cons, readAll_append (h r List.mem_cons_self), hrest]
    rfl

theorem eq_texts_of_readAll (h : readAll text = some reports) :
    (∀ r ∈ reports, r.Legible) ∧ text = reports.flatMap fun r ↦ r.text.toList := by
  fun_induction readAll text generalizing reports with
  | case1 text hempty =>
    obtain rfl := Option.some.inj h
    simpa using hempty
  | case2 text hempty hread => cases h
  | case3 text hempty r rest hread ih =>
    obtain ⟨rs, hrs, rfl⟩ := Option.map_eq_some_iff.1 h
    obtain ⟨htext, hlegible⟩ := eq_append_of_readOne hread
    obtain ⟨hall, hrest⟩ := ih hrs
    refine ⟨List.forall_mem_cons.2 ⟨hlegible, hall⟩, ?_⟩
    rw [List.flatMap_cons, ← hrest, htext]

theorem fromUTF8?_eq_some_iff {bytes : ByteArray} {text : String} :
    String.fromUTF8? bytes = some text ↔ bytes = text.toByteArray := by
  unfold String.fromUTF8?
  split
  · rename_i hvalid
    rw [Option.some.injEq, ← String.toByteArray_inj]
    rfl
  · rename_i hinvalid
    constructor
    · intro h
      cases h
    · rintro rfl
      exact absurd text.isValidUTF8 hinvalid

theorem stream_toByteArray (reports : List Report) : (stream reports).toByteArray =
    (String.ofList (reports.flatMap fun r ↦ r.text.toList)).toByteArray := by
  have hbytes : stream reports =
      (reports.flatMap fun r ↦ r.text.toList).flatMap String.utf8EncodeChar := by
    rw [List.flatMap_assoc]
    exact List.flatMap_congr fun r _ ↦ bytes_eq_flatMap r
  rw [String.toByteArray_ofList, hbytes]
  rfl

/-- A stream of bytes is read as reports just if it is what these reports were written as. -/
theorem decode_eq_some_iff {bytes : List UInt8} :
    decode bytes = some reports ↔ (∀ r ∈ reports, r.Legible) ∧ bytes = stream reports := by
  have hstream {text : String} (htext : text.toList = reports.flatMap fun r ↦ r.text.toList) :
      bytes.toByteArray = text.toByteArray ↔ bytes = stream reports := by
    rw [← List.toByteArray_inj, stream_toByteArray, ← htext, String.ofList_toList]
  rw [decode, Option.bind_eq_some_iff]
  constructor
  · rintro ⟨text, htext, hread⟩
    obtain ⟨hlegible, hlist⟩ := eq_texts_of_readAll hread
    exact ⟨hlegible, (hstream hlist).1 (fromUTF8?_eq_some_iff.1 htext)⟩
  · rintro ⟨hlegible, hbytes⟩
    refine ⟨String.ofList (reports.flatMap fun r ↦ r.text.toList), ?_, ?_⟩
    · exact fromUTF8?_eq_some_iff.2 ((hstream String.toList_ofList).2 hbytes)
    · rw [String.toList_ofList]
      exact readAll_texts hlegible

theorem taken_deliverAll {ε : Type} {s : Sink ε} (hchunk : 1 ≤ s.chunk) (hempty : s.taken = [])
    (hroom : (stream reports).length ≤ s.cap) :
    (deliverAll reports s).2.taken = stream reports := by
  have hleft : left s = s.cap - 0 := by simp [left, hempty]
  obtain ⟨calls, hrun⟩ := deliverAll_eq hchunk hleft reports
  rw [hrun, fed, hempty, List.nil_append, List.take_of_length_le]
  omega

theorem shows_digits (n : ℕ) : ∀ c ∈ digits n, showsTime c = true := by
  intro c hc
  rw [showsTime, isDigit_of_mem_digits hc, Bool.true_or]

theorem shows_zeros (k : ℕ) : ∀ c ∈ List.replicate k '0', showsTime c = true := by
  intro c hc
  rw [List.eq_of_mem_replicate hc]
  rfl

theorem dropTrailingZeros_subset (ds : List Char) : dropTrailingZeros ds ⊆ ds := by
  intro c hc
  rw [dropTrailingZeros, List.mem_reverse] at hc
  exact List.mem_reverse.1 ((List.dropWhile_sublist _).subset hc)

theorem isTime_positional (n places : ℕ) : IsTime (positional n places) := by
  unfold positional
  dsimp only
  generalize hpadded : List.replicate (places + 1 - (digits n).length) '0' ++ digits n = padded
  have hlength : places + 1 ≤ padded.length := by
    rw [← hpadded, List.length_append, List.length_replicate]
    omega
  have hshown : ∀ c ∈ padded, showsTime c = true := by
    rw [← hpadded]
    exact List.forall_mem_append.2 ⟨shows_zeros _, shows_digits n⟩
  have hwhole : padded.take (padded.length - places) ≠ [] := by
    rw [Ne, List.take_eq_nil_iff, ← List.length_eq_zero_iff]
    omega
  have hfront : ∀ c ∈ padded.take (padded.length - places), showsTime c = true :=
    fun c hc ↦ hshown c (List.mem_of_mem_take hc)
  have hbehind : ∀ c ∈ dropTrailingZeros (padded.drop (padded.length - places)),
      showsTime c = true :=
    fun c hc ↦ hshown c (List.mem_of_mem_drop (dropTrailingZeros_subset _ hc))
  split
  · exact isTime_ofList hwhole hfront
  · apply isTime_ofList (List.append_ne_nil_of_left_ne_nil hwhole _)
    exact List.forall_mem_append.2 ⟨hfront, List.forall_mem_cons.2 ⟨rfl, hbehind⟩⟩

/-- Every number shown by the library stands in digits and points. -/
theorem isTime_text (b : Binary) : IsTime b.text := by
  unfold Binary.text
  split
  · exact ⟨by simp, by simp [showsTime]⟩
  generalize b.shortest = decimal
  obtain ⟨n, scale⟩ := decimal
  dsimp only
  split
  · apply isTime_ofList (List.append_ne_nil_of_left_ne_nil (digits_ne_nil n) _)
    exact List.forall_mem_append.2 ⟨shows_digits n, shows_zeros _⟩
  · exact isTime_positional n _

/-- Reports written one after another can be told apart again: from the bytes alone the reader gets
back which reports they were, and it accepts no other bytes. So different lists of reports are
written differently. A sink with room for all of it takes just this stream, and the programs only
write reports of this kind. -/
theorem streams_decode_uniquely {reports reports' : List Report}
    (hlegible : ∀ r ∈ reports, r.Legible) (hlegible' : ∀ r ∈ reports', r.Legible) :
    decode (stream reports) = some reports ∧
    (stream reports = stream reports' → reports = reports') ∧
    (∀ (ε : Type) (s s' : Sink ε), 1 ≤ s.chunk → s.taken = [] → (stream reports).length ≤ s.cap →
      1 ≤ s'.chunk → s'.taken = [] → (stream reports').length ≤ s'.cap →
      (deliverAll reports s).2.taken = (deliverAll reports' s').2.taken → reports = reports') ∧
    (∀ bytes rs, decode bytes = some rs ↔ (∀ r ∈ rs, r.Legible) ∧ bytes = stream rs) ∧
    (∀ n t, (ofTally n t).Legible) ∧
    ∀ t, (ofTimed (fun e ↦ e.seconds.text) t).Legible := by
  have hread : decode (stream reports) = some reports := decode_eq_some_iff.2 ⟨hlegible, rfl⟩
  have hinjective : stream reports = stream reports' → reports = reports' := by
    intro h
    have hread' : decode (stream reports') = some reports' :=
      decode_eq_some_iff.2 ⟨hlegible', rfl⟩
    rw [h, hread'] at hread
    exact (Option.some.inj hread).symm
  refine ⟨hread, hinjective, ?_, fun bytes rs ↦ decode_eq_some_iff, fun n t ↦ trivial,
    fun t ↦ isTime_text _⟩
  intro ε s s' hchunk hempty hroom hchunk' hempty' hroom' h
  rw [taken_deliverAll hchunk hempty hroom, taken_deliverAll hchunk' hempty' hroom'] at h
  exact hinjective h

/-- The least checksum, followed by a value that shares its digits. -/
theorem streams_decode_uniquely_least :
    (∀ r ∈ [flips (-9223372036854775808) 9 30, fibonacci 9223372036854775808 "0.5"], r.Legible) ∧
    (∀ r ∈ [fibonacci 9223372036854775808 "0.5"], r.Legible) ∧
    decode (stream [flips (-9223372036854775808) 9 30, fibonacci 9223372036854775808 "0.5"]) =
      some [flips (-9223372036854775808) 9 30, fibonacci 9223372036854775808 "0.5"] ∧
    stream [flips (-9223372036854775808) 9 30, fibonacci 9223372036854775808 "0.5"] ≠
      stream [fibonacci 9223372036854775808 "0.5"] := by
  have htime : IsTime "0.5" := ⟨by simp, by simp [showsTime]⟩
  have hlegible : ∀ r ∈ [flips (-9223372036854775808) 9 30,
      fibonacci 9223372036854775808 "0.5"], r.Legible :=
    List.forall_mem_cons.2 ⟨trivial, List.forall_mem_singleton.2 htime⟩
  have hlegible' : ∀ r ∈ [fibonacci 9223372036854775808 "0.5"], r.Legible :=
    List.forall_mem_singleton.2 htime
  obtain ⟨hread, hinjective, -⟩ := streams_decode_uniquely hlegible hlegible'
  refine ⟨hlegible, hlegible', hread, ?_⟩
  intro h
  cases hinjective h

end MicroBench.Proofs.ReportStream

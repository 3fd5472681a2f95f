import NautilusAgents.RecordingRuns
import NautilusAgents.Fixture

/-!
# The lines of a recording

What a recorder has written is read back line by line. A record is written
without a newline, so that splitting the target at its newlines gives the
records, and each line is the text of one object whose kind says which of its
other members to read.

A target that somebody else has written need not end in a newline, and the line
of a record is put behind it as it stands. Then the record does not begin a line
but ends the one that was left open (`nonEmptyLines_append_line_iff`), so that
an append stands on its own line exactly where the target was empty or ended in
a newline (`TraceRecorder.ownLine_iff`).
-/

/-- **Lines without a newline of their own are found again** by splitting at
the newlines, before an empty remainder. -/
theorem splitOn_flatten_lines {texts : List (List UInt8)} (h : ∀ text ∈ texts, 0x0a ∉ text) :
    (texts.map (fun text => text ++ [0x0a])).flatten.splitOn 0x0a = texts ++ [[]] := by
  induction texts with
  | nil => rfl
  | cons text texts ih =>
    rw [List.map_cons, List.flatten_cons, List.append_assoc, List.singleton_append,
      List.splitOn_append_cons_self_of_not_mem (h text List.mem_cons_self),
      ih (fun t ht => h t (List.mem_cons_of_mem _ ht)), List.cons_append]

/-! ## Behind any content -/

/-- The lines of a file that hold anything. -/
def nonEmptyLines (bytes : List UInt8) : List (List UInt8) :=
  (bytes.splitOn 0x0a).filter (· ≠ [])

theorem nonEmptyLines_append_newline (front rest : List UInt8) :
    nonEmptyLines (front ++ 0x0a :: rest) = nonEmptyLines front ++ nonEmptyLines rest := by
  unfold nonEmptyLines
  rw [List.splitOn_append_cons_self, List.filter_append]

theorem nonEmptyLines_eq_singleton {text : List UInt8} (hnl : 0x0a ∉ text) (hne : text ≠ []) :
    nonEmptyLines text = [text] := by
  unfold nonEmptyLines
  rw [List.splitOn_eq_singleton hnl]
  exact List.filter_eq_self.mpr (fun t ht => by simpa [List.mem_singleton.mp ht] using hne)

/-- **An open line is written on**: behind content that does not end in a
newline, a text without one belongs to the last line. -/
theorem exists_open_line {content : List UInt8} (hne : content ≠ [])
    (hopen : content.getLast? ≠ some 0x0a) :
    ∃ front line, ∀ text, 0x0a ∉ text →
      nonEmptyLines (content ++ text) = front ++ [line ++ text] := by
  induction content using List.reverseRecOn with
  | nil => exact absurd rfl hne
  | append_singleton content byte ih =>
    rw [List.getLast?_concat] at hopen
    have hbyte : ∀ text, 0x0a ∉ text → (0x0a : UInt8) ∉ [byte] ++ text := by
      intro text htext hmem
      rcases List.mem_append.mp hmem with h | h
      · exact hopen (congrArg some (List.mem_singleton.mp h).symm)
      · exact htext h
    by_cases hcontent : content = []
    · refine ⟨[], [byte], fun text htext => ?_⟩
      rw [hcontent, List.nil_append, List.nil_append]
      exact nonEmptyLines_eq_singleton (hbyte text htext) (by simp)
    by_cases hlast : content.getLast? = some 0x0a
    · -- the byte opens a line of its own
      obtain ⟨front, rfl⟩ := List.getLast?_eq_some_iff.mp hlast
      refine ⟨nonEmptyLines front, [byte], fun text htext => ?_⟩
      rw [List.append_assoc, List.append_assoc, List.singleton_append,
        nonEmptyLines_append_newline, nonEmptyLines_eq_singleton (hbyte text htext) (by simp)]
    · obtain ⟨front, line, hline⟩ := ih hcontent hlast
      refine ⟨front, line ++ [byte], fun text htext => ?_⟩
      rw [List.append_assoc, List.append_assoc]
      exact hline _ (hbyte text htext)

/-- **A line put behind a content is a line of its own** exactly where the
content is empty or ends in a newline. -/
theorem nonEmptyLines_append_line_iff (content : List UInt8) {text : List UInt8}
    (hnl : 0x0a ∉ text) (hne : text ≠ []) :
    nonEmptyLines (content ++ (text ++ [0x0a])) = nonEmptyLines content ++ [text] ↔
      content = [] ∨ content.getLast? = some 0x0a := by
  have hended : nonEmptyLines (content ++ (text ++ [0x0a])) = nonEmptyLines (content ++ text) := by
    rw [← List.append_assoc, nonEmptyLines_append_newline]
    exact List.append_nil _
  rw [hended]
  constructor
  · intro h
    by_contra hopen
    rw [not_or] at hopen
    obtain ⟨front, line, hline⟩ := exists_open_line hopen.1 hopen.2
    have hbefore := hline [] List.not_mem_nil
    rw [List.append_nil] at hbefore
    rw [hline text hnl, hbefore] at h
    have hlength := congrArg List.length h
    simp at hlength
  · rintro (rfl | hlast)
    · exact nonEmptyLines_eq_singleton hnl hne
    · obtain ⟨front, rfl⟩ := List.getLast?_eq_some_iff.mp hlast
      have hfront : nonEmptyLines (front ++ [0x0a]) = nonEmptyLines front := by
        rw [nonEmptyLines_append_newline]
        exact List.append_nil _
      rw [hfront, List.append_assoc, List.singleton_append, nonEmptyLines_append_newline,
        nonEmptyLines_eq_singleton hnl hne]

/-- **A file has lines added to it**: they are put behind what it held, each with
a newline, and where that was empty or ended in a newline, they are its new
lines. -/
structure AddsLines (before after : List UInt8) (texts : List (List UInt8)) : Prop where
  /-- The bytes of the file. -/
  bytes : after = before ++ (texts.map (fun text => text ++ [0x0a])).flatten
  /-- The lines of the file. -/
  lines : before = [] ∨ before.getLast? = some 0x0a →
    nonEmptyLines after = nonEmptyLines before ++ texts

/-- **Lines that are put behind a content** are found again where the first of
them begins a line. -/
theorem addsLines_flatten (before : List UInt8) {texts : List (List UInt8)}
    (h : ∀ text ∈ texts, 0x0a ∉ text ∧ text ≠ []) :
    AddsLines before (before ++ (texts.map (fun text => text ++ [0x0a])).flatten) texts := by
  refine ⟨rfl, fun hclosed => ?_⟩
  induction texts generalizing before with
  | nil => rw [List.map_nil, List.flatten_nil, List.append_nil, List.append_nil]
  | cons text texts ih =>
    obtain ⟨⟨hnl, hne⟩, hrest⟩ := List.forall_mem_cons.mp h
    have hline := (nonEmptyLines_append_line_iff before hnl hne).mpr hclosed
    have hended : (before ++ (text ++ [0x0a])).getLast? = some 0x0a := by
      rw [← List.append_assoc, List.getLast?_concat]
    rw [List.map_cons, List.flatten_cons, ← List.append_assoc, ih _ hrest (.inr hended), hline,
      List.append_assoc, List.singleton_append]

section

variable [UuidCrate]

namespace JsonlRecord

/-- **A document is that of a record**: an object without repeated members,
whose kind names the record and whose payload members are read back as what it
holds. -/
def ReadsAs (record : JsonlRecord) (j : Json) : Prop :=
  (∃ members, j = .obj members ∧ (members.map Prod.fst).Nodup) ∧
  match record with
  | .trace t => j.member "kind" = some (.str "trace") ∧
      (j.member "trace").bind deserialize = some t
  | .observationReference r => j.member "kind" = some (.str "observation_reference") ∧
      (j.member "reference").bind deserialize = some r
  | .observation r o => j.member "kind" = some (.str "observation") ∧
      (j.member "reference").bind deserialize = some r ∧
      (j.member "observation").bind deserialize = some o

/-- **A record is its own document**: the kind and the payload do not
collide. -/
theorem readsAs_serialize (record : JsonlRecord) : record.ReadsAs (serialize record) := by
  cases record with
  | trace t =>
    have hnames : (["kind", "trace"] : List String).Nodup := by decide
    exact ⟨⟨_, rfl, hnames⟩, rfl, deserialize_serialize t⟩
  | observationReference r =>
    have hnames : (["kind", "reference"] : List String).Nodup := by decide
    exact ⟨⟨_, rfl, hnames⟩, rfl, deserialize_serialize r⟩
  | observation r o =>
    have hnames : (["kind", "reference", "observation"] : List String).Nodup := by decide
    exact ⟨⟨_, rfl, hnames⟩, rfl, deserialize_serialize r, deserialize_serialize o⟩

/-- The members of a record, in whose documents no name is repeated and
nothing is too deep. -/
theorem exists_members (record : JsonlRecord) :
    ∃ members, serialize record = .obj members ∧
      ∀ m ∈ members, m.snd.IJson ∧ m.snd.DepthLE (Crates.maxDepth - 1) := by
  have hpayload : ∀ {α : Type} [Serialize α] [Deserialize α] [LawfulSerde α] [Strict α] (v : α),
      (Strict.shape α).depth ≤ Crates.maxDepth - 1 →
      (serialize v).IJson ∧ (serialize v).DepthLE (Crates.maxDepth - 1) := fun v hdepth =>
    ⟨LawfulSerde.iJson v, (Serde.depthLE_of_deserialize (deserialize_serialize v)).mono hdepth⟩
  have hkind : ∀ s, (Json.str s).IJson ∧ (Json.str s).DepthLE (Crates.maxDepth - 1) :=
    fun s => ⟨.str s, Json.depthLE_str _ s⟩
  cases record with
  | trace t =>
    refine ⟨_, rfl, fun m hm => ?_⟩
    simp only [List.mem_cons, List.not_mem_nil, or_false] at hm
    rcases hm with rfl | rfl
    · exact hkind _
    · exact hpayload t (Nat.le_of_ble_eq_true rfl)
  | observationReference r =>
    refine ⟨_, rfl, fun m hm => ?_⟩
    simp only [List.mem_cons, List.not_mem_nil, or_false] at hm
    rcases hm with rfl | rfl
    · exact hkind _
    · exact hpayload r (Nat.le_of_ble_eq_true rfl)
  | observation r o =>
    refine ⟨_, rfl, fun m hm => ?_⟩
    simp only [List.mem_cons, List.not_mem_nil, or_false] at hm
    rcases hm with rfl | rfl | rfl
    · exact hkind _
    · exact hpayload r (Nat.le_of_ble_eq_true rfl)
    · exact hpayload o (Nat.le_of_ble_eq_true rfl)

theorem iJson_serialize (record : JsonlRecord) : (serialize record).IJson := by
  obtain ⟨⟨members, hmembers, hnodup⟩, -⟩ := record.readsAs_serialize
  obtain ⟨members', hmembers', hvalues⟩ := record.exists_members
  rw [hmembers] at hmembers' ⊢
  cases hmembers'
  exact .obj hnodup (fun m hm => (hvalues m hm).1)

theorem depthLE_serialize (record : JsonlRecord) :
    (serialize record).DepthLE Crates.maxDepth := by
  obtain ⟨members, hmembers, hvalues⟩ := record.exists_members
  rw [hmembers]
  exact Json.depthLE_obj (fun m hm => (hvalues m hm).2)

end JsonlRecord

namespace TraceRecorder

variable [Crates]

/-- The line of a record is the compact text of its document. -/
theorem lineOfRecord_eq (hwrite : Crates.CompactWriter) (record : JsonlRecord) :
    lineOfRecord record = .ok ((serialize record).encode ++ [0x0a]) := by
  unfold lineOfRecord
  rw [hwrite _ record.iJson_serialize]

/-- Calls that all return `Ok` are the calls that return `Ok`. -/
theorem returnedOk_eq_self (recorder : TraceRecorder) {calls : List RecordCall}
    {fs : FileSystem PathBuf} (h : ∀ run ∈ recorder.runs calls fs, run.result = .ok ()) :
    recorder.returnedOk calls fs = calls := by
  induction calls generalizing fs with
  | nil => rfl
  | cons call calls ih =>
    have hfirst : (recorder.runCall call fs).result = .ok () := h _ List.mem_cons_self
    have hrest : recorder.returnedOk calls (recorder.runCall call fs).fs = calls :=
      ih (fun run hrun => h run (List.mem_cons_of_mem _ hrun))
    simp only [returnedOk, hfirst, hrest]

/-- **The target is one line for each call.** After calls on an empty target
that all return `Ok`, splitting it at its newlines gives as many non-empty
lines as there were calls, and then nothing; and each line is read back as the
record of its call. -/
theorem jsonl_framing (hwrite : Crates.CompactWriter) (hread : Crates.Reader)
    (recorder : TraceRecorder) (calls : List RecordCall) (fs : FileSystem PathBuf)
    (hempty : (fs recorder.path).getD [] = [])
    (hok : ∀ run ∈ recorder.runs calls fs, run.result = .ok ()) :
    ∃ lines : List (List UInt8),
      ((recorder.stateAfter calls fs recorder.path).getD []).splitOn 0x0a = lines ++ [[]] ∧
      (∀ line ∈ lines, line ≠ []) ∧
      List.Forall₂ (fun call line => ∃ record j, recorder.recordOf call.request = .ok record ∧
        Crates.fromSlice line = .ok j ∧ record.ReadsAs j) calls lines := by
  obtain ⟨written, hrequests, hstate⟩ := recorder.exists_written_stateAfter calls fs
  rw [recorder.returnedOk_eq_self hok] at hrequests
  refine ⟨written.map (fun w => (serialize w.record).encode), ?_, ?_, ?_⟩
  · have hlines : written.map WrittenRecord.line = (written.map (fun w =>
        (serialize w.record).encode)).map (fun text => text ++ [0x0a]) := by
      rw [List.map_map]
      refine List.map_congr_left (fun w _ => ?_)
      have hline := w.line_eq
      rw [lineOfRecord_eq hwrite] at hline
      exact (Except.ok.inj hline).symm
    rw [hstate, getD_contentAfter, hempty, List.nil_append, hlines]
    refine splitOn_flatten_lines (fun text htext => ?_)
    obtain ⟨w, -, rfl⟩ := List.mem_map.mp htext
    exact Json.newline_notMem_encode w.record.iJson_serialize
  · intro line hline
    obtain ⟨w, -, rfl⟩ := List.mem_map.mp hline
    exact Json.encode_ne_nil w.record.iJson_serialize
  · have hsame : List.Forall₂ (fun (w : WrittenRecord recorder) (call : RecordCall) =>
        w.request = call.request) written calls := by
      rw [← List.forall₂_map_left_iff (R := fun r (call : RecordCall) => r = call.request),
        ← List.forall₂_map_right_iff (f := RecordCall.request), hrequests]
      exact List.forall₂_refl _
    rw [List.forall₂_map_right_iff]
    refine hsame.flip.imp (fun call w hrequest => ?_)
    refine ⟨w.record, serialize w.record, ?_, ?_, w.record.readsAs_serialize⟩
    · rw [← w.record_eq, show w.request = call.request from hrequest]
    · exact hread _ _ (Json.parse_encode w.record.iJson_serialize) w.record.iJson_serialize
        w.record.depthLE_serialize

/-- **Calls add the records of those that returned `Ok`** to the lines of the
target, in order, whatever it held and whatever faults the other calls met. -/
theorem exists_lines (hwrite : Crates.CompactWriter) (recorder : TraceRecorder)
    (calls : List RecordCall) (fs : FileSystem PathBuf) :
    ∃ records : List JsonlRecord,
      (recorder.returnedOk calls fs).map (fun call => recorder.recordOf call.request)
        = records.map .ok ∧
      AddsLines ((fs recorder.path).getD []) ((recorder.stateAfter calls fs recorder.path).getD [])
        (records.map (fun record => (serialize record).encode)) := by
  obtain ⟨written, hrequests, hstate⟩ := recorder.exists_written_stateAfter calls fs
  refine ⟨written.map WrittenRecord.record, ?_, ?_⟩
  · have hrecords := congrArg (List.map recorder.recordOf) hrequests
    rw [List.map_map, List.map_map] at hrecords
    rw [List.map_map]
    exact hrecords.symm.trans (List.map_congr_left (fun w _ => w.record_eq))
  · have hlines : written.map WrittenRecord.line = ((written.map WrittenRecord.record).map
        (fun record => (serialize record).encode)).map (fun text => text ++ [0x0a]) := by
      rw [List.map_map, List.map_map]
      refine List.map_congr_left (fun w _ => ?_)
      have hline := w.line_eq
      rw [lineOfRecord_eq hwrite] at hline
      exact (Except.ok.inj hline).symm
    rw [hstate, getD_contentAfter, hlines]
    refine addsLines_flatten _ (fun text htext => ?_)
    obtain ⟨record, -, rfl⟩ := List.mem_map.mp htext
    exact ⟨Json.newline_notMem_encode record.iJson_serialize,
      Json.encode_ne_nil record.iJson_serialize⟩

/-- A call that returns `Ok` puts the text of its record and a newline behind
what the target held. -/
theorem exists_text_of_ok (hwrite : Crates.CompactWriter) {recorder : TraceRecorder}
    {call : RecordCall} {fs : FileSystem PathBuf}
    (hok : (recorder.runCall call fs).result = .ok ()) :
    ∃ record, recorder.recordOf call.request = .ok record ∧
      ((recorder.runCall call fs).fs recorder.path).getD []
        = (fs recorder.path).getD [] ++ ((serialize record).encode ++ [0x0a]) := by
  obtain ⟨written, hrequest, htarget⟩ := (recorder.atomicCall call fs).ok hok
  have hline := written.line_eq
  rw [lineOfRecord_eq hwrite] at hline
  refine ⟨written.record, hrequest ▸ written.record_eq, ?_⟩
  rw [htarget, Except.ok.inj hline]
  rfl

/-- **An append stands on its own line** exactly where the target was empty or
ended in a newline. Whatever it held and whatever is recorded, after a call
that returns `Ok` its lines are those from before and the record's, unless its
last line was left open. -/
theorem ownLine_iff (hwrite : Crates.CompactWriter) (recorder : TraceRecorder)
    (call : RecordCall) (fs : FileSystem PathBuf)
    (hok : (recorder.runCall call fs).result = .ok ()) :
    ∃ record, recorder.recordOf call.request = .ok record ∧
      (nonEmptyLines (((recorder.runCall call fs).fs recorder.path).getD [])
          = nonEmptyLines ((fs recorder.path).getD []) ++ [(serialize record).encode] ↔
        (fs recorder.path).getD [] = [] ∨
          ((fs recorder.path).getD []).getLast? = some 0x0a) := by
  obtain ⟨record, hrecord, htarget⟩ := exists_text_of_ok hwrite hok
  refine ⟨record, hrecord, ?_⟩
  rw [htarget]
  exact nonEmptyLines_append_line_iff _ (Json.newline_notMem_encode record.iJson_serialize)
    (Json.encode_ne_nil record.iJson_serialize)

end TraceRecorder

end

section

open Fixture

/-- The trace of the fixtures, recorded without a fault. -/
def Fixture.traceCall : RecordCall := ⟨.trace trace, Vector.replicate 16 0, fun _ => none⟩

/-- A file system whose only file is the recorder's target. -/
def Fixture.holding (content : List UInt8) : FileSystem PathBuf :=
  fun path => if path = recorder.path then some content else none

/-- A trace recorded behind an object and a newline stands on its own line. -/
theorem TraceRecorder.ownLine_iff_fixture :
    nonEmptyLines (((recorder.runCall traceCall (holding [0x7b, 0x7d, 0x0a])).fs
      recorder.path).getD [])
      = [[0x7b, 0x7d], (serialize (JsonlRecord.trace trace)).encode] := by
  obtain ⟨record, hrecord, hiff⟩ :=
    ownLine_iff compactWriter recorder traceCall (holding [0x7b, 0x7d, 0x0a]) rfl
  obtain rfl : JsonlRecord.trace trace = record := Except.ok.inj hrecord
  exact hiff.mpr (Or.inr rfl)

/-- **Behind an object without a newline, the record shares its line.** -/
theorem TraceRecorder.exists_not_ownLine :
    (recorder.runCall traceCall (holding [0x7b, 0x7d])).result = .ok () ∧
      recorder.recordOf (.trace trace) = .ok (.trace trace) ∧
      nonEmptyLines (((recorder.runCall traceCall (holding [0x7b, 0x7d])).fs
          recorder.path).getD [])
        ≠ nonEmptyLines (((holding [0x7b, 0x7d]) recorder.path).getD [])
          ++ [(serialize (JsonlRecord.trace trace)).encode] := by
  refine ⟨rfl, rfl, fun h => ?_⟩
  obtain ⟨record, hrecord, htarget⟩ := exists_text_of_ok compactWriter
    (show (recorder.runCall traceCall (holding [0x7b, 0x7d])).result = .ok () from rfl)
  obtain rfl : JsonlRecord.trace trace = record := Except.ok.inj hrecord
  have hiJson := (JsonlRecord.trace trace).iJson_serialize
  rw [htarget, nonEmptyLines_append_line_iff _ (Json.newline_notMem_encode hiJson)
    (Json.encode_ne_nil hiJson)] at h
  exact absurd h (by decide)

end

open Fixture in
/-- The trace and the observation of the fixtures, recorded one after the other
in an empty file system, are read back from two lines. -/
theorem TraceRecorder.jsonl_framing_fixture :
    let calls : List RecordCall :=
      [⟨.trace trace, Vector.replicate 16 0, fun _ => none⟩,
        ⟨.observation observation, Vector.replicate 16 1, fun _ => none⟩]
    ∃ lines : List (List UInt8),
      ((recorder.stateAfter calls (fun _ => none) recorder.path).getD []).splitOn 0x0a
        = lines ++ [[]] ∧
      (∀ line ∈ lines, line ≠ []) ∧
      List.Forall₂ (fun call line => ∃ record j, recorder.recordOf call.request = .ok record ∧
        Crates.fromSlice line = .ok j ∧ record.ReadsAs j) calls lines := by
  refine jsonl_framing compactWriter reader recorder _ (fun _ => none) rfl (fun run hrun => ?_)
  simp only [runs, List.mem_cons, List.not_mem_nil, or_false] at hrun
  rcases hrun with rfl | rfl
  · rfl
  · rfl

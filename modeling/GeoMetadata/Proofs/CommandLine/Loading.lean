import GeoMetadata.Proofs.CommandLine.Delivery
import GeoMetadata.Proofs.Json.Reading
import GeoMetadata.Proofs.Yaml.Schema

/-!
# Which faults of a file are reported

A file that is there and has a format fails to load in the area that it is loaded for, with a report
of that area, as long as its content is sound: the bytes are a text, and the text has a value or the
wrong form.  Bytes that are no text, and texts in which something else stops the reader, fail in no
area, and end a run as an unexpected error (`load_reports_iff_sound`).

## Strategy

What has a value and what has the wrong form is up to the readers, of which nothing is assumed.
`load_eq` says what an existing file with a format is loaded by, and from there the argument is
about two outcomes: that of decoding the bytes, and that of the reader.

* Content that is sound fails with `ContentFault.isMalformed` or not at all, and each such fault is
  reported in the area that it is loaded for (`failsWith_ofFile`).
* Content that is not sound stops at bytes or at a fault that is none of form (`StopsAt`), and the
  failure that comes of it is the same in all areas (`exists_stopsAt_ofFile`).

Records and settings go on from there in the same way, and `Ending.ofFailure` gives the exit code.
For the readers of this library, `hasForeignFault_of_not_isSound` traces content that is not sound
to a byte, to a numeral of too many digits in JSON, or to a scalar without a value in YAML.
-/

namespace GeoMetadata

open Text

namespace StructuredFile

variable {readers : Readers} {tree : FileTree} {path : FilePath} {bytes : List UInt8}
  {format : Format}

/-- The bytes are a text, and the text has a value or the wrong form. -/
def IsSound (readers : Readers) (format : Format) (bytes : List UInt8) : Prop :=
  ∃ text, Utf8.decode bytes = .ok text ∧
    FailsWith (fun fault => fault.isMalformed = true)
      (readText readers format (Utf8.breakLines text))

/-- What stops content from being loaded other than its form: the failure is the fault of the bytes,
or that of the reader. -/
inductive StopsAt (readers : Readers) : Format → List UInt8 → Failure → Prop
  | bytes {format : Format} {bytes : List UInt8} {fault : Utf8.Fault}
      (hbytes : Utf8.decode bytes = .error fault) :
      StopsAt readers format bytes (.undecodable fault)
  | integer {bytes : List UInt8} {text : List Char} {fault : Number.IntegerFault}
      (hdecode : Utf8.decode bytes = .ok text)
      (hread : readers.json (Utf8.breakLines text) = .error (.integer fault)) :
      StopsAt readers .json bytes (.integer fault)
  | scalar {bytes : List UInt8} {text : List Char} {fault : Yaml.Fault}
      (hdecode : Utf8.decode bytes = .ok text)
      (hread : readers.yaml (Utf8.breakLines text) = .error fault)
      (hform : ∀ detail, fault ≠ .malformed detail) :
      StopsAt readers .yaml bytes (.scalar fault)

theorem StopsAt.not_isReportOf {failure : Failure} (h : StopsAt readers format bytes failure)
    (area : Area) : ¬ failure.IsReportOf area := by
  rintro ⟨report, rfl, -⟩
  cases h

/-! ## Content -/

theorem exists_fault_of_not_isSound (h : ¬ IsSound readers format bytes) :
    (∃ fault, Utf8.decode bytes = .error fault) ∨
      ∃ text fault, Utf8.decode bytes = .ok text ∧
        readText readers format (Utf8.breakLines text) = .error fault ∧
        fault.isMalformed ≠ true := by
  cases hdecode : Utf8.decode bytes with
  | error fault => exact .inl ⟨fault, rfl⟩
  | ok text =>
      by_contra hnone
      refine h ⟨text, hdecode, fun fault hfault => ?_⟩
      by_contra hform
      exact hnone (.inr ⟨text, fault, rfl, hfault, hform⟩)

/-- A fault of the reader that is none of form is the failure to load the file, in all areas. -/
theorem exists_stopsAt_of_readText {text : List Char} {fault : ContentFault}
    (hdecode : Utf8.decode bytes = .ok text)
    (hread : readText readers format (Utf8.breakLines text) = .error fault)
    (hform : fault.isMalformed ≠ true) (name : String) :
    ∃ failure, StopsAt readers format bytes failure ∧
      ∀ area subject, Failure.ofFile area subject (.content name fault) = failure := by
  unfold readText at hread
  cases format with
  | json =>
      dsimp only at hread
      cases hjson : readers.json (Utf8.breakLines text) with
      | ok value =>
          rw [hjson] at hread
          cases hread
      | error found =>
          rw [hjson] at hread
          cases hread
          cases found with
          | complaint => exact absurd rfl hform
          | integer fault => exact ⟨.integer fault, .integer hdecode hjson, fun _ _ => rfl⟩
  | yaml =>
      dsimp only at hread
      cases hyaml : readers.yaml (Utf8.breakLines text) with
      | ok value =>
          rw [hyaml] at hread
          cases hread
      | error found =>
          rw [hyaml] at hread
          cases hread
          have hother : ∀ detail, found ≠ .malformed detail := by
            rintro detail rfl
            exact hform rfl
          refine ⟨.scalar found, .scalar hdecode hyaml hother, fun area subject => ?_⟩
          -- All faults but the one of form fall into the same branch.
          cases found with
          | malformed detail => exact absurd rfl (hother detail)
          | _ => rfl

/-! ## Files -/

/-- What an existing file with a format is loaded by. -/
theorem load_eq (hread : tree.read path = .ok bytes) (hformat : formatOf? path = some format) :
    load readers tree path = (do
      let text ← (Utf8.decode bytes).mapError Fault.undecodable
      (readText readers format (Utf8.breakLines text)).mapError (Fault.content path.name)) := by
  have hexists : tree.exists? path = true := by
    unfold FileTree.exists?
    unfold FileTree.read at hread
    split at hread
    · rename_i hwalk
      rw [hwalk]
    all_goals cases hread
  rw [load, hexists, hformat, hread]
  rfl

theorem isReportOf_ofFile_content {fault : ContentFault} (hform : fault.isMalformed = true)
    (area : Area) (subject : Option String) (name : String) :
    (Failure.ofFile area subject (.content name fault)).IsReportOf area := by
  rcases fault with (⟨what, line, column, position⟩ | found) | found
  · exact Failure.isReportOf_about _ _ _
  · cases hform
  · cases found with
    | malformed => exact Failure.isReportOf_about _ _ _
    | _ => cases hform

theorem failsWith_ofFile (hread : tree.read path = .ok bytes)
    (hformat : formatOf? path = some format) (hsound : IsSound readers format bytes) (area : Area)
    (subject : Option String) :
    FailsWith (fun fault => (Failure.ofFile area subject fault).IsReportOf area)
      (load readers tree path) := by
  obtain ⟨text, hdecode, hfails⟩ := hsound
  rw [load_eq hread hformat, hdecode]
  exact failsWith_mapError (hfails.imp fun _ hform => isReportOf_ofFile_content hform _ _ _)

theorem exists_stopsAt_ofFile (hread : tree.read path = .ok bytes)
    (hformat : formatOf? path = some format) (hsound : ¬ IsSound readers format bytes) :
    ∃ fault failure, load readers tree path = .error fault ∧
      StopsAt readers format bytes failure ∧
      ∀ area subject, Failure.ofFile area subject fault = failure := by
  rw [load_eq hread hformat]
  obtain ⟨fault, hdecode⟩ | ⟨text, fault, hdecode, hfault, hform⟩ :=
    exists_fault_of_not_isSound hsound
  · rw [hdecode]
    exact ⟨.undecodable fault, .undecodable fault, rfl, .bytes hdecode, fun _ _ => rfl⟩
  · obtain ⟨failure, hstops, hfailure⟩ :=
      exists_stopsAt_of_readText hdecode hfault hform path.name
    refine ⟨.content path.name fault, failure, ?_, hstops, hfailure⟩
    rw [hdecode]
    show (readText readers format (Utf8.breakLines text)).mapError _ = _
    rw [hfault]
    rfl

end StructuredFile

open StructuredFile (IsSound StopsAt formatOf?)

section Areas

variable {readers : Readers} {tree : FileTree} {path : FilePath} {bytes : List UInt8}
  {format : StructuredFile.Format}

theorem failsWith_load_record_isReportOf (hread : tree.read path = .ok bytes)
    (hformat : formatOf? path = some format) (hsound : IsSound readers format bytes) :
    FailsWith (Failure.IsReportOf .record) (Record.load readers tree path) := by
  unfold Record.load
  dsimp only
  split
  · rename_i fault hfault
    exact failsWith_error.mpr
      (StructuredFile.failsWith_ofFile hread hformat hsound .record _ fault hfault)
  · exact failsWith_mapError fun _ _ => Failure.isReportOf_about _ _ _
  · exact failsWith_error.mpr (Failure.isReportOf_about _ _ _)

theorem isReportOf_issueReport (name : String) (issues : List Issue) :
    (Failure.reported (Settings.issueReport name issues)).IsReportOf .settings := by
  cases issues <;> exact Failure.isReportOf_about _ _ _

theorem failsWith_load_settings_isReportOf (hread : tree.read path = .ok bytes)
    (hformat : formatOf? path = some format) (hsound : IsSound readers format bytes) :
    FailsWith (Failure.IsReportOf .settings) (Settings.load readers tree path) := by
  unfold Settings.load
  dsimp only
  split
  · rename_i fault hfault
    exact failsWith_error.mpr
      (StructuredFile.failsWith_ofFile hread hformat hsound .settings _ fault hfault)
  · exact failsWith_mapError fun _ _ => isReportOf_issueReport _ _
  · exact failsWith_mapError fun _ _ => isReportOf_issueReport _ _
  · exact failsWith_error.mpr (Failure.isReportOf_about _ _ _)

/-- Content that is not sound fails alike wherever it is loaded. -/
theorem exists_stopsAt_load (hread : tree.read path = .ok bytes)
    (hformat : formatOf? path = some format) (hsound : ¬ IsSound readers format bytes) :
    ∃ failure, StopsAt readers format bytes failure ∧
      (∀ area subject, (StructuredFile.load readers tree path).mapError
        (Failure.ofFile area subject) = .error failure) ∧
      Record.load readers tree path = .error failure ∧
      Settings.load readers tree path = .error failure := by
  obtain ⟨fault, failure, hload, hstops, hfailure⟩ :=
    StructuredFile.exists_stopsAt_ofFile hread hformat hsound
  refine ⟨failure, hstops, fun area subject => ?_, ?_, ?_⟩
  · rw [hload]
    exact congrArg Except.error (hfailure area subject)
  · rw [Record.load, hload]
    exact congrArg Except.error (hfailure _ _)
  · rw [Settings.load, hload]
    exact congrArg Except.error (hfailure _ _)

end Areas

/-! ## The readers of this library -/

namespace StructuredFile

/-- The bytes are no text, or the text has a number or a date that has no value. -/
def HasForeignFault (format : Format) (bytes : List UInt8) : Prop :=
  (∃ fault, Utf8.decode bytes = .error fault) ∨
    ∃ text, Utf8.decode bytes = .ok text ∧
      (format = .json ∧ Json.HasLongNumeral (Utf8.breakLines text) ∨
        format = .yaml ∧ Yaml.HasVoidScalar (Utf8.breakLines text))

/-- What is wrong with content that is not sound for the readers of this library. -/
theorem hasForeignFault_of_not_isSound {format : Format} {bytes : List UInt8}
    (h : ¬ IsSound .standard format bytes) : HasForeignFault format bytes := by
  obtain ⟨fault, hdecode⟩ | ⟨text, fault, hdecode, hread, hform⟩ := exists_fault_of_not_isSound h
  · exact .inl ⟨fault, hdecode⟩
  obtain ⟨failure, hstops, -⟩ := exists_stopsAt_of_readText hdecode hread hform ""
  cases hstops with
  | bytes hbytes => exact .inl ⟨_, hbytes⟩
  | integer htext hlong =>
      exact .inr ⟨_, htext, .inl ⟨rfl, Json.hasLongNumeral_of_read hlong⟩⟩
  | scalar htext hvoid hother =>
      exact .inr ⟨_, htext, .inr ⟨rfl, Yaml.hasVoidScalar_of_read hvoid (hother _)⟩⟩

end StructuredFile

namespace CommandLine

theorem code_of_isReportOf {failure : Failure} {area : Area} (h : failure.IsReportOf area) :
    (Ending.ofFailure failure).code = (Ending.ofArea area).code := by
  obtain ⟨report, rfl, rfl⟩ := h
  rfl

theorem code_of_stopsAt {readers : Readers} {format : StructuredFile.Format} {bytes : List UInt8}
    {failure : Failure} (h : StopsAt readers format bytes failure) :
    (Ending.ofFailure failure).code = 9 := by
  cases h <;> rfl

variable {surroundings : Surroundings} {arguments : Arguments}

theorem exitCode_of_load_settings {path : FilePath} {failure : Failure}
    (hpath : arguments.configFile = some path)
    (h : Settings.load surroundings.readers surroundings.tree path = .error failure) :
    (run surroundings arguments).exitCode = (Ending.ofFailure failure).code := by
  refine exitCode_of_error ?_
  rw [preparedText, hpath, loadedSettings, h]
  rfl

theorem exitCode_of_load_record {failure : Failure}
    (hsettings : Succeeds
      (loadedSettings surroundings.readers surroundings.tree arguments.configFile))
    (h : Record.load surroundings.readers surroundings.tree arguments.recordFile =
      .error failure) :
    (run surroundings arguments).exitCode = (Ending.ofFailure failure).code := by
  obtain ⟨settings, hsettings⟩ := hsettings
  refine exitCode_of_error ?_
  rw [preparedText, hsettings, h]
  rfl

/-- Whatever the readers, a file that is there and has a format fails to load with reports of the
area that it is loaded for, and ends a run with the exit code of the area, if its content is sound.
If it is not sound, then it stops at bytes that are no text or at something that has no value; it
fails to load with just this failure, which is a report of no area and the same for records and
settings, and ends a run with the exit code 9. -/
theorem load_reports_iff_sound (readers : Readers) {tree : FileTree} {path : FilePath}
    {bytes : List UInt8} {format : StructuredFile.Format} (hread : tree.read path = .ok bytes)
    (hformat : formatOf? path = some format) :
    (IsSound readers format bytes →
      (∀ area subject, FailsWith (Failure.IsReportOf area)
        ((StructuredFile.load readers tree path).mapError (Failure.ofFile area subject))) ∧
      FailsWith (Failure.IsReportOf .record) (Record.load readers tree path) ∧
      FailsWith (Failure.IsReportOf .settings) (Settings.load readers tree path)) ∧
    (¬ IsSound readers format bytes → ∃ failure, StopsAt readers format bytes failure ∧
      (∀ area, ¬ failure.IsReportOf area) ∧
      (∀ area subject, (StructuredFile.load readers tree path).mapError
        (Failure.ofFile area subject) = .error failure) ∧
      Record.load readers tree path = .error failure ∧
      Settings.load readers tree path = .error failure) ∧
    (∀ surroundings arguments, surroundings.readers = readers → surroundings.tree = tree →
      arguments.configFile = some path → ¬ Succeeds (Settings.load readers tree path) →
      (IsSound readers format bytes → (run surroundings arguments).exitCode = 2) ∧
      (¬ IsSound readers format bytes → (run surroundings arguments).exitCode = 9)) ∧
    (∀ surroundings arguments, surroundings.readers = readers → surroundings.tree = tree →
      arguments.recordFile = path →
      Succeeds (loadedSettings readers tree arguments.configFile) →
      ¬ Succeeds (Record.load readers tree path) →
      (IsSound readers format bytes → (run surroundings arguments).exitCode = 1) ∧
      (¬ IsSound readers format bytes → (run surroundings arguments).exitCode = 9)) := by
  have hsoundRecord : IsSound readers format bytes → _ :=
    failsWith_load_record_isReportOf hread hformat
  have hsoundSettings : IsSound readers format bytes → _ :=
    failsWith_load_settings_isReportOf hread hformat
  have hstops : ¬ IsSound readers format bytes → _ := exists_stopsAt_load hread hformat
  refine ⟨fun hsound => ⟨fun area subject => ?reported, hsoundRecord hsound, hsoundSettings hsound⟩,
    fun hsound => ?stopped, ?settings, ?record⟩
  case reported =>
    exact failsWith_mapError (StructuredFile.failsWith_ofFile hread hformat hsound area subject)
  case stopped =>
    obtain ⟨failure, hfailure, hloads⟩ := hstops hsound
    exact ⟨failure, hfailure, hfailure.not_isReportOf, hloads⟩
  case settings =>
    rintro surroundings arguments rfl rfl hpath hfails
    refine ⟨fun hsound => ?_, fun hsound => ?_⟩
    · obtain ⟨failure, hload⟩ := exists_error_of_not_succeeds hfails
      rw [exitCode_of_load_settings hpath hload,
        code_of_isReportOf (hsoundSettings hsound failure hload)]
      rfl
    · obtain ⟨failure, hfailure, -, -, hload⟩ := hstops hsound
      rw [exitCode_of_load_settings hpath hload, code_of_stopsAt hfailure]
  case record =>
    rintro surroundings arguments rfl rfl rfl hsettings hfails
    refine ⟨fun hsound => ?_, fun hsound => ?_⟩
    · obtain ⟨failure, hload⟩ := exists_error_of_not_succeeds hfails
      rw [exitCode_of_load_record hsettings hload,
        code_of_isReportOf (hsoundRecord hsound failure hload)]
      rfl
    · obtain ⟨failure, hfailure, -, hload, -⟩ := hstops hsound
      rw [exitCode_of_load_record hsettings hload, code_of_stopsAt hfailure]

/-- A tree of one file. -/
def treeOf (name : String) (bytes : List UInt8) : FileTree := .ofList [([name], .file bytes)]

/-- Surroundings with one file. -/
def surroundingsOf (name : String) (bytes : List UInt8) : Surroundings :=
  { sampleSurroundings with tree := treeOf name bytes }

theorem load_undecodable_sample :
    StructuredFile.load .standard (treeOf "r.json" [0xff]) ⟨"", ["r.json"]⟩ =
      .error (.undecodable ⟨0xff, 0, 1, .invalidStart⟩) :=
  eq_error_of_faultOf? (by decide +kernel)

/-- A byte that starts no character fails in no area. -/
theorem undecodable_file_is_not_reported :
    ¬ FailsWith (Failure.IsReportOf .record)
      (Record.load .standard (treeOf "r.json" [0xff]) ⟨"", ["r.json"]⟩) ∧
    ¬ FailsWith (Failure.IsReportOf .settings)
      (Settings.load .standard (treeOf "r.json" [0xff]) ⟨"", ["r.json"]⟩) ∧
    (run (surroundingsOf "r.json" [0xff]) (sampleArguments "r.json")).exitCode = 9 := by
  have hforeign (area : Area) : ¬ (Failure.undecodable ⟨0xff, 0, 1, .invalidStart⟩).IsReportOf area :=
    fun ⟨_, hreport, _⟩ => nomatch hreport
  refine ⟨fun hreported => ?_, fun hreported => ?_, by decide +kernel⟩
  · refine hforeign .record (hreported _ ?_)
    rw [Record.load, load_undecodable_sample]
    rfl
  · refine hforeign .settings (hreported _ ?_)
    rw [Settings.load, load_undecodable_sample]
    rfl

theorem isSound_brace : IsSound .standard .json [0x7b] := by
  have hread : StructuredFile.readText .standard .json ['\x7b'] =
      .error (.json (.complaint .propertyName 1 2 1)) := eq_error_of_faultOf? (by decide +kernel)
  refine ⟨['\x7b'], by decide +kernel, fun fault hfault => ?_⟩
  cases hread.symm.trans hfault
  rfl

theorem not_isSound_undecodable : ¬ IsSound .standard .json [0xff] := by
  rintro ⟨text, hdecode, -⟩
  have hfault : Utf8.decode [0xff] = .error ⟨0xff, 0, 1, .invalidStart⟩ :=
    eq_error_of_faultOf? (by decide +kernel)
  cases hfault.symm.trans hdecode

theorem sample_load_reports_iff_sound :
    FailsWith (Failure.IsReportOf .record)
      (Record.load .standard (treeOf "r.json" [0x7b]) ⟨"", ["r.json"]⟩) ∧
    StructuredFile.HasForeignFault .json [0xff] ∧
    ∃ failure, StopsAt .standard .json [0xff] failure ∧
      Record.load .standard (treeOf "r.json" [0xff]) ⟨"", ["r.json"]⟩ = .error failure := by
  have hreadable (bytes : List UInt8) :
      (treeOf "r.json" bytes).read ⟨"", ["r.json"]⟩ = .ok bytes := rfl
  have hformat : formatOf? ⟨"", ["r.json"]⟩ = some .json := by decide +kernel
  obtain ⟨-, hrecord, -⟩ :=
    (load_reports_iff_sound .standard (hreadable _) hformat).1 isSound_brace
  obtain ⟨failure, hstops, -, -, hload, -⟩ :=
    (load_reports_iff_sound .standard (hreadable _) hformat).2.1 not_isSound_undecodable
  exact ⟨hrecord, StructuredFile.hasForeignFault_of_not_isSound not_isSound_undecodable,
    failure, hstops, hload⟩

end CommandLine

end GeoMetadata

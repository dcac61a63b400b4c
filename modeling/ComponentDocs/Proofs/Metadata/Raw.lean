import ComponentDocs.Metadata.Extraction
import ComponentDocs.Proofs.Outcome
import Mathlib.Tactic.SplitIfs

/-!
# Raw metadata

The records of the components of a file as the handlers leave them, before they are normal.

* `result_extract`: extraction makes raw records normal, or settles their fault;
* `exists_run_of_mem_rawRecords`: a raw record is what the handlers filled in.
-/

namespace ComponentDocs

variable {content : String} {tree : Node} {file : Record} {options : ExtractionOptions} {number : Nat}

/-! ## The records of a source -/

theorem result_rawRecords {src : SourceFile}
    (h : loadSource (Record.text? file "absolute_path") options.folder content options.parser tree = .ok src) :
    (rawRecords content tree file options number).result =
      (componentRecords src options.resolver (handlersFor file (identityPath file number) options)).result := by
  rw [rawRecords, h]
  rfl

theorem result_componentRecords (src : SourceFile) (resolver : Resolver) (handlers : List Handler) :
    (componentRecords src resolver handlers).result = (do
      let definitions ← (chooseDefinitions src resolver).result
      definitions.mapM fun definition => (componentRecord src handlers definition).result) := by
  rw [componentRecords, Outcome.result_bind]
  congr
  funext definitions
  rw [Outcome.result_bind, ← Outcome.result_mapM]
  rfl

theorem result_chooseDefinitions (src : SourceFile) (resolver : Resolver) :
    (chooseDefinitions src resolver).result = (do
      src.check
      match ← resolver src with
      | [] => .error (.rejected .missingDefinition)
      | definitions => .ok definitions) := by
  rw [chooseDefinitions, Outcome.result_bind]
  congr
  funext
  rw [Outcome.result_bind]
  congr
  funext definitions
  cases definitions <;> rfl

theorem componentRecord_ok_iff {src : SourceFile} {handlers : List Handler} {definition : Definition} {raw : Record} :
    (componentRecord src handlers definition).result = .ok raw ↔
      ∃ doc, (Handler.run handlers src definition).result = .ok doc ∧ doc.toRecord = raw := by
  rw [componentRecord, Outcome.result_bind, bind_eq_ok_iff]
  simp [pure]

/-- A raw record is what the handlers filled in. -/
theorem exists_run_of_mem_rawRecords {raws : List Record}
    (h : (rawRecords content tree file options number).result = .ok raws) {raw : Record} (hraw : raw ∈ raws) :
    ∃ src definition doc, (Handler.run (handlersFor file (identityPath file number) options) src definition).result =
      .ok doc ∧ doc.toRecord = raw := by
  rw [rawRecords, Outcome.result_bind] at h
  obtain ⟨src, -, hrecords⟩ := bind_eq_ok_iff.mp h
  rw [result_componentRecords] at hrecords
  obtain ⟨definitions, -, hdefinitions⟩ := bind_eq_ok_iff.mp hrecords
  obtain ⟨definition, -, hdefinition⟩ := exists_of_mapM_ok hdefinitions hraw
  exact ⟨src, definition, componentRecord_ok_iff.mp hdefinition⟩

/-! ## Extraction -/

theorem eq_nil_of_settleFault {fault : Fault} {components : List Record}
    (h : settleFault content fault = .ok components) : components = [] := by
  unfold settleFault at h
  split at h
  · split_ifs at h
    exact (Except.ok.inj h).symm
  · cases h

theorem extract_of_ok {raws : List Record} (h : (rawRecords content tree file options number).result = .ok raws) :
    extract content tree file options number =
      ⟨(normalizeAll raws).result, (rawRecords content tree file options number).trace ++ (normalizeAll raws).trace⟩ := by
  have hrecover : ((rawRecords content tree file options number).recover (settleFault content)).result = .ok raws := by
    rw [Outcome.recover, h]
    rfl
  rw [extract, Outcome.bind_of_ok hrecover]
  rfl

theorem extract_of_error {fault : Fault} (h : (rawRecords content tree file options number).result = .error fault) :
    extract content tree file options number =
      ⟨settleFault content fault, (rawRecords content tree file options number).trace⟩ := by
  have hrecover : ((rawRecords content tree file options number).recover (settleFault content)).result =
      settleFault content fault := by
    rw [Outcome.recover, h]
    rfl
  cases hsettled : settleFault content fault with
  | error other => rw [extract, Outcome.bind_of_error (hrecover.trans hsettled), Outcome.recover]
  | ok components =>
    obtain rfl := eq_nil_of_settleFault hsettled
    rw [extract, Outcome.bind_of_ok (hrecover.trans hsettled)]
    exact Outcome.ext rfl (List.append_nil _)

/-- Extraction makes raw records normal, or settles their fault. -/
theorem result_extract : (extract content tree file options number).result =
    match (rawRecords content tree file options number).result with
    | .ok raws => (normalizeAll raws).result
    | .error fault => settleFault content fault := by
  cases h : (rawRecords content tree file options number).result with
  | error fault => rw [extract_of_error h]
  | ok raws => rw [extract_of_ok h]

end ComponentDocs

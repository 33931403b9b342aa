/-
Events are read off their JSON.

An event is written as an object whose fields are its kind and its components in their order
(`map_fst_fields`).  So the reader finds the kind (`open?_toJson`), takes all the other fields as
the components (`record_fields`) and puts the event together again (`ofJson_toJson`), whatever its texts
are, if the year of its time has four digits.  What is written contains nothing but texts, literals,
arrays and objects: `isPlain_toJson`.
-/
import BuildLens.Model.Event
import BuildLens.Proofs.Json.RoundTrip
import BuildLens.Proofs.Time.RoundTrip

namespace BuildLens

/-! ## Names -/

lemma BuildScope.ofName_name (v : BuildScope) : ofName v.name = some v := by
  cases v <;> decide

lemma BuildAction.ofName_name (v : BuildAction) : ofName v.name = some v := by
  cases v <;> decide

lemma BuildEvent.Kind.ofName_name (v : Kind) : ofName v.name = some v := by
  cases v <;> decide

/-! ## Records -/

namespace Json

lemma allItems_iff {p : Json → Bool} {xs : List Json} :
    allItems p xs ↔ ∀ x ∈ xs, x.all p := by
  induction xs with
  | nil => simp [allItems]
  | cons x xs ih => simp [allItems, ih]

lemma depthOfItems_le {n : Nat} {xs : List Json} (h : ∀ x ∈ xs, x.depth ≤ n) :
    depthOfItems xs ≤ n := by
  induction xs with
  | nil => exact Nat.zero_le n
  | cons x xs ih =>
    obtain ⟨hx, hxs⟩ := List.forall_mem_cons.mp h
    exact Nat.max_le.mpr ⟨hx, ih hxs⟩

/-- An object whose fields are the components of a record is read as that record. -/
lemma record_object (fields : List (String × Json))
    (hnames : hasRepeats (fields.map Prod.fst) = false) :
    record (fields.map Prod.fst) (.object fields) = some ⟨false, fields⟩ := by
  have hknown : fields.filter (fun f => (fields.map Prod.fst).contains f.1) = fields := by
    refine List.filter_eq_self.mpr fun f hf => ?_
    rw [List.contains_iff_mem]
    exact List.mem_map_of_mem hf
  rw [record, Record.ofFields, hknown]
  simp [hnames]

lemma listOf_map {α : Type} {read : Json → Option α} {write : α → Json}
    (h : ∀ a, read (write a) = some a) (as : List α) :
    listOf read (.array (as.map write)) = some as := by
  have hmap : (as.map write).mapM read = some as := by
    induction as with
    | nil => rfl
    | cons a as ih => simp [h, ih]
  rw [listOf, array?, Option.bind_some, hmap]

end Json

/-! ## Planned projects -/

namespace PlannedProject

lemma ofJson_toJson (p : PlannedProject) : ofJson p.toJson = some p := by
  have hrecord : Json.record ["project", "should_build"] p.toJson =
      some ⟨false, [("project", .text p.project), ("should_build", .bool p.shouldBuild)]⟩ :=
    Json.record_object [("project", .text p.project), ("should_build", .bool p.shouldBuild)] rfl
  simp [ofJson, hrecord, Json.Record.required, Json.Record.withDefault, List.lookup_cons,
    Json.text?, Json.bool?]

lemma depth_toJson (p : PlannedProject) : p.toJson.depth = 1 := by
  simp [toJson, Json.depth, Json.depthOfFields]

end PlannedProject

namespace BuildEvent

variable (e : BuildEvent)

/-! ## Fields -/

/-- The fields of an event are the components of its kind. -/
lemma map_fst_fields : e.fields.map Prod.fst = e.kind.components := by
  cases e <;> rfl

lemma Kind.components_spec (kind : Kind) :
    Json.hasRepeats kind.components = false ∧ "kind" ∉ kind.components := by
  cases kind <;> decide

lemma record_fields :
    Json.record e.kind.components (.object e.fields) = some ⟨false, e.fields⟩ := by
  have hrepeats := e.kind.components_spec.1
  rw [← e.map_fst_fields] at hrepeats ⊢
  exact Json.record_object _ hrepeats

/-- The kind of an event is found in front of its components. -/
lemma open?_toJson : open? e.toJson = some (e.kind, .object e.fields) := by
  have hcomponents : ∀ f ∈ e.fields, f.1 ≠ "kind" := by
    intro f hf hname
    have hmem : f.1 ∈ e.kind.components := by
      rw [← e.map_fst_fields]
      exact List.mem_map_of_mem hf
    exact e.kind.components_spec.2 (hname ▸ hmem)
  have hkind : e.fields.filter (fun f => f.1 == "kind") = [] :=
    List.filter_eq_nil_iff.mpr fun f hf => by simp [hcomponents f hf]
  have hrest : e.fields.filter (fun f => f.1 != "kind") = e.fields :=
    List.filter_eq_self.mpr fun f hf => by simp [hcomponents f hf]
  simp [toJson, open?, hkind, hrest, Json.text?, Kind.ofName_name]

/-! ## Values -/

/-- An event is written with texts and literals only. -/
lemma all_toJson {p : Json → Bool} (hbool : ∀ b, p (.bool b)) (htext : ∀ s, p (.text s)) :
    e.toJson.all p := by
  have hproject : ∀ q : PlannedProject, q.toJson.all p := by
    intro q
    simp [PlannedProject.toJson, Json.all, Json.allFields, hbool, htext]
  have hcontexts : ∀ contexts : List PlannedProject,
      Json.allItems p (contexts.map PlannedProject.toJson) := by
    intro contexts
    rw [Json.allItems_iff]
    intro x hx
    obtain ⟨q, -, rfl⟩ := List.mem_map.mp hx
    exact hproject q
  cases e <;> simp [toJson, fields, BuildScope.toJson, BuildAction.toJson, timeToJson, Json.all,
    Json.allFields, hbool, htext, hcontexts]

lemma isPlain_toJson : e.toJson.all Json.isPlain :=
  e.all_toJson (fun _ => rfl) fun _ => rfl

lemma depth_toJson_le : e.toJson.depth ≤ 3 := by
  have hcontexts : ∀ contexts : List PlannedProject,
      Json.depthOfItems (contexts.map PlannedProject.toJson) ≤ 1 := by
    intro contexts
    refine Json.depthOfItems_le fun x hx => ?_
    obtain ⟨q, -, rfl⟩ := List.mem_map.mp hx
    exact q.depth_toJson.le
  cases e with
  | buildBegin scope action contexts time =>
    have hle := hcontexts contexts
    simp only [toJson, fields, BuildScope.toJson, BuildAction.toJson, timeToJson, Json.depth,
      Json.depthOfFields]
    omega
  | _ => simp [toJson, fields, BuildScope.toJson, BuildAction.toJson, timeToJson, Json.depth,
      Json.depthOfFields]

lemma isReadable_toJson : isReadable e.toJson := by
  have hdepth : e.toJson.depth ≤ maxDepth := Nat.le_trans e.depth_toJson_le (by decide)
  have hall : e.toJson.all fun v => v.isInRange && !v.isUnreadable :=
    e.all_toJson (fun _ => rfl) fun _ => rfl
  rw [isReadable, hall]
  simpa using hdepth

lemma readTime_timeToJson {t : Instant} (h : 0 ≤ t.date.year ∧ t.date.year ≤ 9999) :
    readTime (timeToJson t) = some t := by
  rw [readTime, timeToJson, Json.text?, Option.bind_some, String.toList_ofList,
    Instant.read_write t h]

lemma readScope_toJson (v : BuildScope) : readScope v.toJson = some v :=
  v.ofName_name

lemma readAction_toJson (v : BuildAction) : readAction v.toJson = some v :=
  v.ofName_name

/-- An event is read off its JSON, if its year has four digits. -/
theorem ofJson_toJson (now : Instant) (h : 0 ≤ e.time.date.year ∧ e.time.date.year ≤ 9999) :
    ofJson now e.toJson = some e := by
  have htime := readTime_timeToJson h
  have hrecord : ofRecord now e.kind ⟨false, e.fields⟩ = some e := by
    cases e with
    | buildBegin scope action contexts time =>
      rw [BuildEvent.time] at htime
      simp [ofRecord, kind, fields, Json.Record.required, Json.Record.withDefault, List.lookup_cons,
        readScope_toJson, readAction_toJson, Json.listOf_map PlannedProject.ofJson_toJson, htime]
    | buildDone scope action time =>
      rw [BuildEvent.time] at htime
      simp [ofRecord, kind, fields, Json.Record.required, Json.Record.withDefault, List.lookup_cons,
        readScope_toJson, readAction_toJson, htime]
    | projectBegin project projectConfig platform solutionConfig time =>
      rw [BuildEvent.time] at htime
      simp [ofRecord, kind, fields, Json.Record.required, Json.Record.withDefault, List.lookup_cons,
        Json.text?, htime]
    | projectDone project projectConfig platform solutionConfig success time =>
      rw [BuildEvent.time] at htime
      simp [ofRecord, kind, fields, Json.Record.required, Json.Record.withDefault, List.lookup_cons,
        Json.text?, Json.bool?, htime]
  simp [ofJson, e.isReadable_toJson, e.open?_toJson, e.record_fields, hrecord]

end BuildEvent

end BuildLens

import SkillBoard.Proofs.Sample
import SkillBoard.Proofs.Session.Selection
import SkillBoard.Proofs.Source.Refusal
import SkillBoard.Startup

/-!
# Starting up, and what a failed start leaves behind

A start ends with a dataset or with a message, never both, and sorts the table either way. A failed
load leaves nothing behind: what is done to the table before a dataset comes is what would have been
done to it with the dataset there from the beginning.

* `Coherent.ext`: dataset, settings and selection determine a coherent session without a message.
* `Coherent.load_run`: a late dataset gives the session that has had it all along.
* `Config.status_start_iff`: the message says, in full, why the file that was asked for is refused.
* `Config.start_recovers` puts this together for a start from any settings and files.
-/

namespace SkillBoard

namespace Session

variable {s t : Session}

theorem run_nil (s : Session) : s.run [] = s := rfl

theorem table_showTable (s : Session) (v : TableView) : (s.showTable v).table = v := rfl

/-- All else that a coherent session keeps beside a dataset is computed. -/
theorem Coherent.ext (hs : s.Coherent) (ht : t.Coherent) {d : Dataset} (hsd : s.dataset = some d)
    (htd : t.dataset = some d) (htable : s.table = t.table) (hselected : s.selected = t.selected) :
    s = t := by
  obtain ⟨hover, hcor, hcol, hstatus⟩ := hs.loaded d hsd
  obtain ⟨hover', hcor', hcol', hstatus'⟩ := ht.loaded d htd
  have hstudents : s.students = t.students := by rw [students, students, hsd, htd]
  have hvisible : s.visible = t.visible := by rw [hs.rows, ht.rows, htable, hstudents]
  cases s
  cases t
  simp_all only

theorem coherent_ofResult (r : Except LoadError Dataset) : (ofResult r).Coherent := by
  cases r with
  | ok d => exact coherent_opening (.dataset d)
  | error e => exact coherent_opening (.error e.chain)

/-- A dataset that comes late gives the session that has had it all along. -/
theorem Coherent.load_run (hs : s.Coherent) (ht : t.Coherent) {d : Dataset} (htd : t.dataset = some d)
    (htable : s.table = t.table) (hselected : t.selected = 0) {ops : List Operation}
    (hops : ∀ op ∈ ops, op.OnTable) : (s.run ops).load d = t.run ops := by
  have hrun := hs.run_onTable hops
  have hrun' := ht.run_onTable hops
  refine (coherent_load (s.run ops) d).ext (ht.run ops) rfl ?_ ?_ ?_
  · rw [hrun']
    exact htd
  · rw [hrun, hrun', htable]
    rfl
  · rw [hrun']
    exact hselected.symm

end Session

namespace Config

open Session (ofDataset ofError ofResult)

variable (c : Config) (w : Wording)

/-- The first sort as a run of operations. -/
def sorting : List Operation := c.sort.toList.map .applySetting

theorem ready_eq_run (s : Session) : c.ready s = s.run c.sorting := by
  unfold ready sorting
  cases c.sort with
  | none => rfl
  | some setting =>
    rw [Option.toList_some, List.map_singleton, Session.run_cons]
    exact (Session.run_nil _).symm

theorem onTable_sorting : ∀ op ∈ c.sorting, op.OnTable := by
  intro op hop
  obtain ⟨setting, -, rfl⟩ := List.mem_map.1 hop
  trivial

/-- The settings of the table after the first sort. -/
def sortedTable : TableView := c.sorting.foldl TableView.perform TableView.initial

theorem ready_eq_showTable {s : Session} (hs : s.Coherent) (htable : s.table = TableView.initial) :
    c.ready s = s.showTable c.sortedTable := by
  rw [ready_eq_run, hs.run_onTable c.onTable_sorting, htable, sortedTable]

theorem table_ofResult (r : Except LoadError Dataset) : (ofResult r).table = TableView.initial := by
  cases r with
  | ok d => rfl
  | error e => rfl

theorem start_eq (files : Path → Content) :
    c.start w files = (ofResult (c.loadDataset w files)).showTable c.sortedTable :=
  c.ready_eq_showTable (Session.coherent_ofResult _) (table_ofResult _)

theorem table_start (files : Path → Content) : (c.start w files).table = c.sortedTable := by
  rw [start_eq, Session.table_showTable]

theorem sortedTable_ofValues (data : Option Path) (sort : Option String) :
    (ofValues data sort).sortedTable =
      match sort with
      | none => TableView.initial
      | some setting =>
        if Text.trim setting = "" then TableView.initial
        else (TableView.initial.applySetting? setting).getD TableView.initial := by
  unfold sortedTable sorting ofValues
  cases sort with
  | none => rfl
  | some setting =>
    by_cases hblank : Text.trim setting = ""
    · simp [Option.filter, hblank]
    · simp [Option.filter, hblank, TableView.perform]

/-! ## The state a start ends in -/

/-- The session of a start whose load failed: a message and nothing to show. -/
structure Failure (s : Session) (chain : String) : Prop where
  dataset : s.dataset = none
  status : s.status = some ("Failed to load data: " ++ chain)
  students : s.students = []
  visible : s.visible = []
  overview : s.overview = ⟨0, 0, 0, 0, 0⟩
  correlations : s.correlations = []
  profile : s.profile? = none

/-- The session of a start with a dataset: no message, and everything computed from the dataset. -/
structure Success (s : Session) (d : Dataset) : Prop where
  dataset : s.dataset = some d
  status : s.status = none
  coherent : s.Coherent

section

variable {c w} {files : Path → Content}

theorem failure_start {e : LoadError} (h : c.loadDataset w files = .error e) :
    Failure (c.start w files) e.chain := by
  rw [start_eq, h]
  exact ⟨rfl, rfl, rfl, Session.rows_nil c.sortedTable, rfl, rfl, rfl⟩

theorem success_start {d : Dataset} (h : c.loadDataset w files = .ok d) :
    Success (c.start w files) d := by
  rw [start_eq, h]
  exact ⟨rfl, rfl, (Session.coherent_ofResult (.ok d)).showTable _⟩

/-- Only a file is ever refused. -/
theorem loadDataset_error_iff {text : String} :
    (∃ e, c.loadDataset w files = .error e ∧ e.chain = text) ↔
      ∃ path, c.dataPath = some path ∧ path.Refusal w (files path) text := by
  unfold loadDataset
  cases c.dataPath with
  | none =>
    obtain ⟨d, hd, -⟩ := exists_loadSample w
    simp [hd]
  | some path => simp [Path.refusal_iff]

/-- The message says why the file is refused. -/
theorem status_start_iff {text : String} :
    (c.start w files).status = some ("Failed to load data: " ++ text) ↔
      ∃ path, c.dataPath = some path ∧ path.Refusal w (files path) text := by
  rw [← loadDataset_error_iff]
  cases h : c.loadDataset w files with
  | ok d => simp [(success_start h).status]
  | error e => simp [(failure_start h).status]

end

/-- After any start, a dataset that comes late gives what a start with it would have given. -/
theorem load_run_start (files : Path → Content) (d : Dataset) {ops : List Operation}
    (hops : ∀ op ∈ ops, op.OnTable) :
    ((c.start w files).run ops).load d = (c.ready (ofDataset d)).run ops := by
  have hd := Session.coherent_opening (.dataset d)
  have hlate : (c.start w files).Coherent := by
    rw [start_eq]
    exact (Session.coherent_ofResult _).showTable _
  rw [c.ready_eq_showTable (s := ofDataset d) hd rfl]
  refine hlate.load_run (hd.showTable c.sortedTable) rfl ?_ rfl hops
  rw [table_start, Session.table_showTable]

/-- What a start comes to, with a data path, a first sort and what paths lead to. -/
structure Started (w : Wording) (data : Option Path) (sort : Option String) (files : Path → Content)
    (s : Session) : Prop where
  /-- There is a dataset or a message, not both. -/
  exclusive : s.dataset.isSome = !s.status.isSome
  /-- The first sort is applied either way. -/
  table : s.table = match sort with
    | none => TableView.initial
    | some setting =>
      if Text.trim setting = "" then TableView.initial
      else (TableView.initial.applySetting? setting).getD TableView.initial
  outcome : match (ofValues data sort).loadDataset w files with
    | .ok d => Success s d
    | .error e => Failure s e.chain
  /-- Without a path the sample is loaded. -/
  sample : data.filter (·.octets ≠ []) = none → ∃ d, loadSample w = .ok d ∧ Success s d
  /-- With a path the message says why the file is refused, if it is. -/
  message : ∀ text, s.status = some ("Failed to load data: " ++ text) ↔
    ∃ path, data = some path ∧ path.octets ≠ [] ∧ path.Refusal w (files path) text
  /-- A dataset that comes late gives what a start with it would have given. -/
  late : ∀ (d : Dataset) (ops : List Operation), (∀ op ∈ ops, op.OnTable) →
    (s.run ops).load d = ((ofValues data sort).ready (ofDataset d)).run ops

/-- **Startup and recovery**: from any settings and files, a start ends with a dataset or with a
message, not with both. Either way the first sort is applied. If the load fails there is nothing to
show but why, and nothing of it is left once a dataset comes. -/
theorem start_recovers (w : Wording) (data : Option Path) (sort : Option String)
    (files : Path → Content) : Started w data sort files ((ofValues data sort).start w files) where
  exclusive := by
    cases h : (ofValues data sort).loadDataset w files with
    | ok d => rw [(success_start h).dataset, (success_start h).status]; rfl
    | error e => rw [(failure_start h).dataset, (failure_start h).status]; rfl
  table := by
    rw [← sortedTable_ofValues data sort]
    exact table_start _ w files
  outcome := by
    cases h : (ofValues data sort).loadDataset w files with
    | ok d => exact success_start h
    | error e => exact failure_start h
  sample hdata := by
    obtain ⟨d, hd, -⟩ := exists_loadSample w
    have hload : (ofValues data sort).loadDataset w files = loadSample w := by
      rw [loadDataset, show (ofValues data sort).dataPath = none from hdata]
    exact ⟨d, hd, success_start (hload.trans hd)⟩
  message text := by
    have hpath (path : Path) : (ofValues data sort).dataPath = some path ↔
        data = some path ∧ path.octets ≠ [] := by
      simp [ofValues, Option.filter_eq_some_iff]
    simp only [status_start_iff, hpath, and_assoc]
  late d _ := load_run_start _ w files d

/-- One path without an extension, and one to a JSON file that ends too soon. -/
theorem start_recovers_refused :
    let unknown := ofValues (some ⟨[0x61]⟩) (some "name:desc")
    let short := ofValues (some (.ofString "a.json")) (some "name:desc")
    let files (_ : Path) : Content := .octets (Text.Utf8.encode "[")
    Failure (unknown.start .plain files) "unsupported file extension: ." ∧
    Failure (short.start .plain files) "parsing JSON: not JSON" ∧
    (short.start .plain files).table = ⟨"", .name, .descending⟩ ∧
    ((short.start .plain files).run [.search "ada"]).load ⟨twoZeros⟩ =
      (short.ready (ofDataset ⟨twoZeros⟩)).run [.search "ada"] := by
  intro unknown short files
  have hunknown := start_recovers .plain (some ⟨[0x61]⟩) (some "name:desc") files
  have hshort := start_recovers .plain (some (.ofString "a.json")) (some "name:desc") files
  have hextension : unknown.loadDataset .plain files = .error (.unsupportedFormat "") := by
    decide +kernel
  have hparse : short.loadDataset .plain files = .error (.jsonNotParsed "not JSON") := by
    decide +kernel
  refine ⟨?_, ?_, ?_, hshort.late ⟨twoZeros⟩ [.search "ada"] (by decide)⟩
  · have houtcome := hunknown.outcome
    rwa [show (ofValues (some ⟨[0x61]⟩) (some "name:desc")).loadDataset .plain files = _ from
      hextension] at houtcome
  · have houtcome := hshort.outcome
    rwa [show (ofValues (some (.ofString "a.json")) (some "name:desc")).loadDataset .plain files = _ from
      hparse] at houtcome
  · exact hshort.table.trans (by decide +kernel)

end Config

end SkillBoard

import SkillBoard.Sample
import SkillBoard.Session
import SkillBoard.Source.Load

/-!
# Startup

Two settings from the environment, the path of a dataset and the first sort, decide how a session begins.
-/

namespace SkillBoard

def dataVariable : String := "STUDENT_DASHBOARD_DATA"

def sortVariable : String := "STUDENT_DASHBOARD_SORT"

/-- The settings of the board. -/
structure Config where
  title : String
  /-- Width and height of the window. -/
  innerSize : Nat × Nat
  minInnerSize : Nat × Nat
  /-- The dataset file; without one the sample is shown. -/
  dataPath : Option Path
  sort : Option String

namespace Config

def default : Config where
  title := "Cognitive Skills & Student Performance Dashboard"
  innerSize := (1280, 900)
  minInnerSize := (720, 480)
  dataPath := none
  sort := none

/-- The settings with those of the environment: an empty path and a blank sort count as none. -/
def ofValues (dataPath : Option Path) (sort : Option String) : Config :=
  { default with
    dataPath := dataPath.filter fun p => p.octets ≠ []
    sort := sort.filter fun s => Text.trim s ≠ "" }

/-- The settings with those of the environment as octets; a sort that is no text counts as none. -/
def ofEnvironment (data sort : Option (List UInt8)) : Config :=
  ofValues (data.map Path.mk) (sort.bind Text.Utf8.decode?)

/-- The dataset that the settings ask for; `files` is what paths lead to. -/
def loadDataset (c : Config) (w : Wording) (files : Path → Content) : Except LoadError Dataset :=
  match c.dataPath with
  | some path => loadFile w path (files path)
  | none => loadSample w

/-- The session with its dataset, before the first sort. -/
def opening (c : Config) (w : Wording) (files : Path → Content) : Session :=
  Session.ofResult (c.loadDataset w files)

/-- The first sort, if there is one. -/
def ready (c : Config) (s : Session) : Session :=
  match c.sort with
  | some setting => s.applySetting setting
  | none => s

def start (c : Config) (w : Wording) (files : Path → Content) : Session := c.ready (c.opening w files)

end Config

end SkillBoard

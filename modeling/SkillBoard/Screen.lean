import SkillBoard.Decimal.Reader
import SkillBoard.Session

/-!
# The board in words

Which texts the panels of the board show, in the order they are painted, and what a gesture on them does
to the session. The numbers along the axes of a chart are not among them.
-/

namespace SkillBoard

namespace Screen

/-- The findings of the summary, shown as they are. -/
def insights : List String :=
  ["Cognitive skills show strong correlation with assessment scores.",
    "ML model predicts scores accurately for synthetic data.",
    "Students grouped into three learning personas.",
    "Personas can help tailor learning strategies."]

/-- Whether a text is not empty and does not read as a number. -/
def isWords (s : String) : Bool := s != "" && (float? s).isNone

/-- The names in a chart's legend, in the order of the alphabet. -/
def legend (names : List String) : List String :=
  stableSort (fun a b => decide (a < b)) (names.filter (· != ""))

/-! ## Names along an axis -/

/-- The width of a chart that has the screen to itself. -/
def chartWidth : Nat := 2960

/-- How much of it the summary at the side takes away. -/
def sideWidth : Nat := 280

/-- The distance that names on an axis have to exceed. -/
def nameDistance : Nat := 60

/-- How many places lie between two names on the axis of `n > 0` groups of bars: the least power of ten
that sets the names far enough apart. The bars reach over `n - 1/5` places, and the axis by a twentieth
of that further at both ends. -/
def namePlaces (width n : Nat) : Nat :=
  let short := nameDistance * (55 * n - 11) / (50 * width)
  if short = 0 then 1 else Decimal.tenPow (Nat.toDigits 10 short).length

def namesAlong (width : Nat) (names : List String) : List String :=
  let places := namePlaces width names.length
  names.zipIdx.filterMap fun (name, i) => if i % places = 0 then some name else none

/-! ## Panels -/

/-- The bar at the top: title, number of rows, message. -/
def topBar (s : Session) (title : String) : List String :=
  let counts := match s.dataset with
    | some d =>
      [toString d.size ++ " students loaded, " ++ toString s.visible.length ++ " visible"]
    | none => []
  title :: counts ++ s.status.toList

def overview (s : Session) : List String :=
  s.overview.cards.flatMap fun (title, value) => [title, value]

def correlations (s : Session) : List String :=
  if s.correlations.isEmpty then ["No data."]
  else s.correlations.flatMap fun (m, r) => [m.label, Decimal.fixedSigned 2 r]

def personas (s : Session) : List String :=
  match s.dataset with
  | none => ["No dataset loaded."]
  | some d =>
    let counts := d.personaCounts
    s.colours.entries.flatMap fun (p, _) =>
      ["●", personaLabel p ++ ": " ++ toString ((counts.lookup p).getD 0) ++ " students"]

def sidePanel (s : Session) : List String :=
  "Overview" :: overview s ++ "Correlation with score" :: correlations s ++
    "Personas" :: personas s ++ "Insights & Key Findings" :: insights.flatMap fun line => ["•", line]

/-- The bar chart in so much width: names along the axis, and the series. -/
def barChart (s : Session) (width : Nat) : List String :=
  let chart := skillBars s.students
  "Skill vs Score (Bar Chart)" ::
    if s.students.isEmpty then []
    else (namesAlong width chart.labels ++ legend (chart.series.map (·.name))).filter isWords

/-- The point chart: titles of the axes, and the personas. -/
def scatterChart (s : Session) : List String :=
  let chart := attentionScatter s.students s.colours
  "Attention vs Performance (Scatter Chart)" ::
    ([chart.xTitle, chart.yTitle] ++ legend (chart.series.map (·.name))).filter isWords

/-- The profile of the selected student: the picker's text, the axes, and the student's name. -/
def radarChart (s : Session) : List String :=
  "Student Profile (Radar Chart)" ::
    match s.profile? with
    | none => ["No student to profile."]
    | some student =>
      let chart := profileRadar student
      student.name :: chart.labels ++ legend (chart.series.map (·.name))

/-- The headings of the table; the sorted one has an arrow. -/
def headings (v : TableView) : List String :=
  Field.all.map fun field =>
    if field = v.field then field.heading ++ " " ++ v.direction.arrow else field.heading

/-- The table: headings and the cells of the visible rows. -/
def table (s : Session) : List String :=
  let rows := s.visibleStudents
  headings s.table ++
    rows.flatMap (fun (_, student) => Field.all.map fun field => (student.entry field).shown) ++
    if rows.isEmpty then ["No students match the search."] else []

def searchBox (v : TableView) : String :=
  if v.search = "" then "Search by name or class..." else v.search

def panels (s : Session) (title : String) : List (List String) :=
  [topBar s title, sidePanel s, barChart s (chartWidth - sideWidth), scatterChart s, radarChart s,
    searchBox s.table :: table s]

def window (s : Session) (title : String) : List String :=
  (panels s title).flatten.filter isWords

end Screen

/-! ## Gestures -/

/-- Something done with mouse or keyboard. -/
inductive Gesture
  /-- A click on the heading of a column. -/
  | heading (column : Nat)
  /-- A click on the name in a visible row. -/
  | row (row : Nat)
  /-- Typing at the end of the search text, which has one line: a line end by itself is not typed. -/
  | type (text : String)
  /-- Removing the last character of the search text. -/
  | backspace
  /-- Choosing an entry of the profile's picker. -/
  | pick (entry : String)

namespace Session

def pickerEntry (s : Student) : String := s.name ++ " (#" ++ toString s.id ++ ")"

/-- Whether a character takes any width where it is painted: line ends do not, nor do joiners and marks
of direction. -/
def takesWidth (c : Char) : Bool :=
  let n := c.toNat
  !(n == 0x0A || n == 0x0D || (0x200B ≤ n && n ≤ 0x200F) || (0x202A ≤ n && n ≤ 0x202E) ||
    (0x2060 ≤ n && n ≤ 0x2064) || (0x2066 ≤ n && n ≤ 0x206F) || n == 0xFEFF)

/-- The operation of the link on the name in a visible row. -/
def nameLink? (s : Session) (row : Nat) : Option Operation := s.visible[row]?.map .select

/-- Whether the name in a visible row takes any width, so that a click can hit it. -/
def nameShows (s : Session) (row : Nat) : Bool :=
  match s.visibleStudents[row]? with
  | some (_, student) => student.name.toList.any takesWidth
  | none => false

/-- The operation that a gesture stands for; one that hits nothing stands for none. -/
def operation? (s : Session) : Gesture → Option Operation
  | .heading column => Field.all[column]?.map .clickHeading
  | .row row => if s.nameShows row then s.nameLink? row else none
  | .type text =>
    if text = "\n" ∨ text = "\r" then none else some (.search (s.table.search ++ text))
  | .backspace => some (.search (String.ofList s.table.search.toList.dropLast))
  | .pick entry => (s.students.findIdx? fun student => pickerEntry student == entry).map .select

def gesture (s : Session) (g : Gesture) : Session :=
  match s.operation? g with
  | some op => s.perform op
  | none => s

end Session

end SkillBoard

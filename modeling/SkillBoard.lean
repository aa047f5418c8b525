import SkillBoard.Main
import SkillBoard.Proofs.Binary.Bits
import SkillBoard.Proofs.Sorting
import SkillBoard.Proofs.Table
import SkillBoard.Proofs.Session
import SkillBoard.Proofs.Grouping
import SkillBoard.Proofs.Source.Records
import SkillBoard.Proofs.Source.Loading
import SkillBoard.Proofs.Binary.Nearest
import SkillBoard.Proofs.Binary.Rounding
import SkillBoard.Proofs.Decimal.Value
import SkillBoard.Proofs.Decimal.Text
import SkillBoard.Proofs.Csv
import SkillBoard.Proofs.Export.Csv
import SkillBoard.Proofs.Session.Selection
import SkillBoard.Proofs.Sample
import SkillBoard.Proofs.Source.Refusal
import SkillBoard.Proofs.Startup
import SkillBoard.Proofs.Json.Number
import SkillBoard.Proofs.Json.Text
import SkillBoard.Proofs.Source.Agreement
import SkillBoard.Proofs.Export.Json
import SkillBoard.Proofs.Json.Exact
import SkillBoard.Proofs.Personas
import SkillBoard.Proofs.Binary.Order
import SkillBoard.Proofs.Source.FirstFault
import SkillBoard.Proofs.Binary.Integers
import SkillBoard.Proofs.Source.Integers
import SkillBoard.Proofs.Binary.Arithmetic
import SkillBoard.Proofs.Decimal.Shortest
import SkillBoard.Proofs.Export.Columns
import SkillBoard.Proofs.Binary.Ranges
import SkillBoard.Proofs.Cohort.Random
import SkillBoard.Proofs.Cohort.Hundredths
import SkillBoard.Proofs.Cohort.Draw
import SkillBoard.Proofs.Cohort.Personas
import SkillBoard.Proofs.Cohort.Export
import SkillBoard.Proofs.Text.Lowercase
import SkillBoard.Proofs.Search
import SkillBoard.Proofs.Table.Deletion
import SkillBoard.Proofs.Session.Setting
import SkillBoard.Proofs.Source.Arrangement
import SkillBoard.Proofs.Binary.Line
import SkillBoard.Proofs.Statistics.Ranking
import SkillBoard.Proofs.Cohort.Clustering
import SkillBoard.Proofs.Cohort.Strength
import SkillBoard.Proofs.Binary.Opposite
import SkillBoard.Proofs.Statistics.Symmetry
import SkillBoard.Proofs.Runs
import SkillBoard.Proofs.Binary.Sizes
import SkillBoard.Proofs.Statistics.Overflow
import SkillBoard.Proofs.Statistics.Average
import SkillBoard.Proofs.Binary.Ceiling
import SkillBoard.Proofs.Radar
import SkillBoard.Proofs.Cohort.States

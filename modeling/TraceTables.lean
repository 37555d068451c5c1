import TraceTables.Main
import TraceTables.Proofs.Faithful
import TraceTables.Proofs.Rendition
import TraceTables.Proofs.Layout
import TraceTables.Proofs.Acceptance
import TraceTables.Proofs.Selection
import TraceTables.Proofs.Limit
import TraceTables.Proofs.Quotation
import TraceTables.Proofs.ReadBack
import TraceTables.Proofs.Reading
import TraceTables.Proofs.Binary.Accepts
import TraceTables.Proofs.Binary.Stream
import TraceTables.Proofs.Binary.Truncation
import TraceTables.Proofs.Concatenation
import TraceTables.Proofs.Json.Phrases
import TraceTables.Proofs.Json.Digits
import TraceTables.Proofs.Json.Objects
import TraceTables.Proofs.Json.Printed
import TraceTables.Proofs.Lines
import TraceTables.Proofs.Json.Recording
import TraceTables.Proofs.Paths
import TraceTables.Proofs.Output
import TraceTables.Proofs.Run
import TraceTables.Proofs.Rejection
import TraceTables.Proofs.Counters
import TraceTables.Proofs.FirstFault
import TraceTables.Proofs.Succession
import TraceTables.Proofs.Frame
import TraceTables.Proofs.Binary.Budget
import TraceTables.Proofs.Requests
import TraceTables.Proofs.Json.LineEnd
import TraceTables.Proofs.LineByLine
import TraceTables.Proofs.Interruption
import TraceTables.Proofs.LineLayout
import TraceTables.Proofs.Json.WellFormed
import TraceTables.Proofs.Json.EventText
import TraceTables.Proofs.EventLine
import TraceTables.Proofs.RecordLimit
import TraceTables.Proofs.Escapes
import TraceTables.Proofs.Extension

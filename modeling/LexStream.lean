import LexStream.Config.Document
import LexStream.Lexer
import LexStream.Log
import LexStream.Proofs.IndexedCursor
import LexStream.Proofs.Pieces
import LexStream.Proofs.Progress
import LexStream.Proofs.Tiling
import LexStream.TokenStream
import LexStream.Proofs.AlikeSources
import LexStream.Proofs.LongestMatch
import LexStream.Proofs.Recognition
import LexStream.Proofs.Rendering
import LexStream.Proofs.Deliveries
import LexStream.Proofs.Schedules
import LexStream.Proofs.Consumers
import LexStream.Proofs.StrictDecoding
import LexStream.Proofs.Restart
import LexStream.Proofs.Cancellation
import LexStream.Proofs.Payloads
import LexStream.Proofs.LongestNumerals
import LexStream.Proofs.LateFailures
import LexStream.Proofs.FaultPositions
import LexStream.Proofs.Terminators
import LexStream.Proofs.Words
import LexStream.Proofs.TrieLooks
import LexStream.Proofs.OperatorLooks
import LexStream.Proofs.ReadAhead
import LexStream.Proofs.ResultBounds
import LexStream.Proofs.Histories
import LexStream.Proofs.StopRequests
import LexStream.Proofs.KeptRunes
import LexStream.Proofs.ScanLogs
import LexStream.Proofs.WrittenSettings

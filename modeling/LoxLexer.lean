import LoxLexer.Proofs.Acceptance
import LoxLexer.Proofs.Faults
import LoxLexer.Kind
import LoxLexer.Numeral
import LoxLexer.Token
import LoxLexer.Scan
import LoxLexer.Render
import LoxLexer.Session
import LoxLexer.Command.Arguments
import LoxLexer.Main
import LoxLexer.Proofs.Lines
import LoxLexer.Proofs.Concatenation
import LoxLexer.Proofs.Layout
import LoxLexer.Proofs.Prompting
import LoxLexer.Proofs.Json.Roundtrip
import LoxLexer.Proofs.Bytewise.Safety
import LoxLexer.Proofs.Listing
import LoxLexer.Proofs.Truncation
import LoxLexer.Proofs.History
import LoxLexer.Proofs.Independence
import LoxLexer.Proofs.Extension
import LoxLexer.Proofs.Adjacency
import LoxLexer.Proofs.Verdict
import LoxLexer.Proofs.Literals
import LoxLexer.Proofs.LineEndings
import LoxLexer.Proofs.Logs
import LoxLexer.Proofs.NumberDisplay
import LoxLexer.Proofs.Escapes
import LoxLexer.Proofs.Dumps
import LoxLexer.Proofs.Equality
import LoxLexer.Proofs.ReservedWords
import LoxLexer.Proofs.Failures

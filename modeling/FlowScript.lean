import FlowScript.Text
import FlowScript.Text.Blank
import FlowScript.Text.Case
import FlowScript.Text.Printable
import FlowScript.Decimal.Digits
import FlowScript.Decimal.Double
import FlowScript.Decimal.Shortest
import FlowScript.Json
import FlowScript.Json.Token
import FlowScript.Json.Reader
import FlowScript.Json.Printer
import FlowScript.Json.Display
import FlowScript.Json.Equiv
import FlowScript.Selector
import FlowScript.Step
import FlowScript.Step.Json
import FlowScript.Recording
import FlowScript.Recording.Defect
import FlowScript.Recording.Reader
import FlowScript.Script.SourceMap
import FlowScript.Script.Quoted
import FlowScript.Script.Piece
import FlowScript.Script.Writer
import FlowScript.Log.Event
import FlowScript.Script.Notice
import FlowScript.Script.Failure
import FlowScript.Script.Act
import FlowScript.Script.Template
import FlowScript.Script.Scope
import FlowScript.Puppeteer.Support
import FlowScript.Puppeteer.Template
import FlowScript.Playwright.Selector
import FlowScript.Playwright.Template
import FlowScript.Settings
import FlowScript.Log.Config
import FlowScript.Log.Operation
import FlowScript.Log.Scope
import FlowScript.Log.Journal
import FlowScript.Export.Framework
import FlowScript.Export.Config
import FlowScript.Export.Result
import FlowScript.Export.Engine
import FlowScript.Plugin
import FlowScript.Proofs.Text.Lines
import FlowScript.Proofs.Json.Number
import FlowScript.Proofs.Decimal.Numeral
import FlowScript.Proofs.Script.SourceMap
import FlowScript.Proofs.Script.Run
import FlowScript.Proofs.Script.StepRanges
import FlowScript.Proofs.Script.Failures
import FlowScript.Proofs.Script.Extraction
import FlowScript.Proofs.Script.Hooks
import FlowScript.Proofs.Script.Notices
import FlowScript.Proofs.Script.Indentation
import FlowScript.Proofs.Script.Settled
import FlowScript.Proofs.Script.Scan
import FlowScript.Proofs.Script.ScannedLines
import FlowScript.Proofs.Script.ScannedActs
import FlowScript.Proofs.Script.Brackets
import FlowScript.Proofs.Puppeteer.Steps
import FlowScript.Proofs.Playwright.Steps
import FlowScript.Proofs.Export.Rendering
import FlowScript.Proofs.Export.StepAlone
import FlowScript.Proofs.Literal.Reader
import FlowScript.Proofs.Literal.Quoted
import FlowScript.Proofs.Recording.Fields
import FlowScript.Proofs.Recording.Parts
import FlowScript.Proofs.Recording.Reading
import FlowScript.Proofs.Recording.RoundTrip
import FlowScript.Proofs.Recording.Schema
import FlowScript.Proofs.Recording.Acceptance
import FlowScript.Proofs.Recording.NormalForm
import FlowScript.Proofs.Recording.Checks
import FlowScript.Proofs.Puppeteer.Brackets
import FlowScript.Proofs.Playwright.Brackets
import FlowScript.Proofs.Script.ScannedScripts
import FlowScript.Proofs.Export.ClosedScripts
import FlowScript.Proofs.Export.Unforged
import FlowScript.Proofs.Export.Redaction
import FlowScript.Proofs.Puppeteer.Redaction
import FlowScript.Proofs.Playwright.Redaction
import FlowScript.Proofs.Export.FreeText
import FlowScript.Proofs.Json.Numeral
import FlowScript.Proofs.Literal.Value
import FlowScript.Proofs.Literal.Image
import FlowScript.Proofs.Literal.Written
import FlowScript.Proofs.Export.EntryPoints
import FlowScript.Proofs.Export.CountedLines
import FlowScript.Proofs.Puppeteer.TidyLines
import FlowScript.Proofs.Playwright.TidyLines
import FlowScript.Proofs.Export.Layout
import FlowScript.Proofs.Script.Tags
import FlowScript.Proofs.Export.InlineScripts
import FlowScript.Proofs.Script.Symbols
import FlowScript.Proofs.Script.Groups
import FlowScript.Proofs.Script.Comments
import FlowScript.Proofs.Recording.Timeout
import FlowScript.Proofs.Recording.Alike
import FlowScript.Proofs.Recording.FirstDefect
import FlowScript.Proofs.Playwright.Choice
import FlowScript.Proofs.Text.Split
import FlowScript.Proofs.Playwright.Chains
import FlowScript.Proofs.Export.Skips
import FlowScript.Proofs.Export.Events
import FlowScript.Proofs.Script.Calls
import FlowScript.Proofs.Script.Names
import FlowScript.Proofs.Script.NamedActs
import FlowScript.Proofs.Script.Scopes
import FlowScript.Proofs.Puppeteer.Names
import FlowScript.Proofs.Playwright.Names
import FlowScript.Proofs.Export.Scopes
import FlowScript.Proofs.Literal.Deepened
import FlowScript.Proofs.Puppeteer.Selectors
import FlowScript.Proofs.Puppeteer.ElementWaits
import FlowScript.Proofs.Export.ElementCounts
import FlowScript.Proofs.Export.Balance
import FlowScript.Proofs.Log.Blocks
import FlowScript.Proofs.Export.CallerScope
import FlowScript.Proofs.Json.Kind
import FlowScript.Proofs.Recording.Kind
import FlowScript.Proofs.Script.Kind
import FlowScript.Proofs.Puppeteer.Kind
import FlowScript.Proofs.Playwright.Kind
import FlowScript.Proofs.Export.Kind

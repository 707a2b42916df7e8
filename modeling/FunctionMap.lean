import FunctionMap.Main
import FunctionMap.Files.Tree
import FunctionMap.Proofs.Text.Utf8
import FunctionMap.Proofs.Text.Numeral
import FunctionMap.Proofs.Declaration.Table
import FunctionMap.Proofs.Declaration.Transition
import FunctionMap.Proofs.Declaration.OpenDeclaration
import FunctionMap.Proofs.Source.Cursor
import FunctionMap.Proofs.Declaration.Grammar
import FunctionMap.Proofs.Declaration.Reader
import FunctionMap.Proofs.Declaration.Derivation
import FunctionMap.Proofs.Declaration.Concatenation
import FunctionMap.Proofs.Text.Blank
import FunctionMap.Proofs.Declaration.WellFormed
import FunctionMap.Proofs.Declaration.Printer
import FunctionMap.Proofs.Source.Place
import FunctionMap.Proofs.Declaration.Diagnosis
import FunctionMap.Proofs.Declaration.Alike
import FunctionMap.Proofs.Declaration.Layout
import FunctionMap.Proofs.Declaration.Progress
import FunctionMap.Proofs.Declaration.Insertion
import FunctionMap.Proofs.Declaration.Capitalized
import FunctionMap.Proofs.Declaration.Collision
import FunctionMap.Proofs.Output.Delivery
import FunctionMap.Proofs.Text.Legible
import FunctionMap.Proofs.Json.Dump
import FunctionMap.Proofs.Declaration.Key
import FunctionMap.Proofs.Output.Formatter
import FunctionMap.Proofs.Yaml.Quoted
import FunctionMap.Proofs.Yaml.Scalar
import FunctionMap.Proofs.Yaml.Tag
import FunctionMap.Proofs.Declaration.Loaded
import FunctionMap.Proofs.Yaml.Document
import FunctionMap.Proofs.Declaration.Local
import FunctionMap.Proofs.Files.Tree
import FunctionMap.Proofs.Output.Unloadable
import FunctionMap.Proofs.Batch.Policy
import FunctionMap.Proofs.Batch.Success
import FunctionMap.Proofs.Declaration.Recapitalized
import FunctionMap.Proofs.Declaration.Keyword
import FunctionMap.Proofs.Yaml.Separation
import FunctionMap.Proofs.Yaml.Shorthand
import FunctionMap.Proofs.Text.Lossy
import FunctionMap.Proofs.Source.Position
import FunctionMap.Proofs.Source.Excerpt
import FunctionMap.Proofs.Declaration.MarkedLine
import FunctionMap.Proofs.Declaration.KeyText
import FunctionMap.Proofs.Declaration.History
import FunctionMap.Proofs.Batch.Pairing
import FunctionMap.Proofs.Output.Capacity
import FunctionMap.Proofs.Source.Integer
import FunctionMap.Proofs.Source.Bytewise
import FunctionMap.Proofs.Output.Registry
import FunctionMap.Proofs.Settings.Tree
import FunctionMap.Proofs.Settings.Layers

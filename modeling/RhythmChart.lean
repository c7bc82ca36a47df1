import RhythmChart.Text.Blank
import RhythmChart.Text.Split
import RhythmChart.Text.Integer
import RhythmChart.Text.Lossy
import RhythmChart.Decimal.Basic
import RhythmChart.Decimal.Shortest
import RhythmChart.Decimal.Layout
import RhythmChart.Decimal.Reading
import RhythmChart.Playfield
import RhythmChart.Difficulty
import RhythmChart.Frame
import RhythmChart.Alphabet
import RhythmChart.Dialect
import RhythmChart.Line
import RhythmChart.Chart
import RhythmChart.Timeline
import RhythmChart.Song
import RhythmChart.Event
import RhythmChart.Directive
import RhythmChart.Procedures
import RhythmChart.Performance.Pass
import RhythmChart.Performance
import RhythmChart.Compilation
import RhythmChart.Json.Value
import RhythmChart.Json.Reading
import RhythmChart.Json.Decode
import RhythmChart.Level.Model
import RhythmChart.Level.Build
import RhythmChart.Level.File
import RhythmChart.Level.Save
import RhythmChart.Storage.Path
import RhythmChart.Storage.Fault
import RhythmChart.Storage.Tree
import RhythmChart.Storage.FileSystem
import RhythmChart.Storage.Host
import RhythmChart.Storage.Machine
import RhythmChart.Audio
import RhythmChart.Audio.Preparation
import RhythmChart.Yaml.Cursor
import RhythmChart.Yaml.Scalar
import RhythmChart.Yaml.Property
import RhythmChart.Yaml.Token
import RhythmChart.Yaml.Node
import RhythmChart.Yaml.Document
import RhythmChart.Settings
import RhythmChart.Settings.File
import RhythmChart.Conversion
import RhythmChart.CommandLine
import RhythmChart.Main
import RhythmChart.Proofs.Effects
import RhythmChart.Proofs.Decimal.Arithmetic
import RhythmChart.Proofs.Performance.Moves
import RhythmChart.Proofs.Performance.Passes
import RhythmChart.Proofs.Performance.Directives
import RhythmChart.Proofs.Performance.Recital
import RhythmChart.Proofs.Performance.Refinement
import RhythmChart.Proofs.Performance.Descent
import RhythmChart.Proofs.Performance.Rehearsal
import RhythmChart.Proofs.Performance.Causality
import RhythmChart.Proofs.Line.Grammar
import RhythmChart.Proofs.Line.Reading
import RhythmChart.Proofs.Line.Strictness
import RhythmChart.Proofs.Performance.Discipline
import RhythmChart.Proofs.Performance.Ending
import RhythmChart.Proofs.Performance.Isolation
import RhythmChart.Proofs.Alphabet.Coding
import RhythmChart.Proofs.Alphabet.Making
import RhythmChart.Proofs.Line.Writing
import RhythmChart.Proofs.Line.Single
import RhythmChart.Proofs.Line.Trailing
import RhythmChart.Proofs.Performance.Origins
import RhythmChart.Proofs.Compilation.Drawing
import RhythmChart.Proofs.Level.Playfield
import RhythmChart.Proofs.Json.Number
import RhythmChart.Proofs.Json.Roundtrip
import RhythmChart.Proofs.Level.Files
import RhythmChart.Proofs.Performance.Omission
import RhythmChart.Proofs.Performance.Sharing
import RhythmChart.Proofs.Performance.Exchange
import RhythmChart.Proofs.Performance.Resumption
import RhythmChart.Proofs.Performance.Known
import RhythmChart.Proofs.Performance.History
import RhythmChart.Proofs.Performance.Registry
import RhythmChart.Proofs.Performance.Measure
import RhythmChart.Proofs.Performance.LeadIn
import RhythmChart.Proofs.Chart.Lines
import RhythmChart.Proofs.Text.LineEnds
import RhythmChart.Proofs.Chart.Linewise
import RhythmChart.Proofs.Compilation.Rewording
import RhythmChart.Proofs.Performance.Tempo
import RhythmChart.Proofs.Level.Completeness
import RhythmChart.Proofs.Level.Finiteness
import RhythmChart.Proofs.Storage.Names
import RhythmChart.Proofs.Storage.Following
import RhythmChart.Proofs.Storage.Changes
import RhythmChart.Proofs.Storage.Copying
import RhythmChart.Proofs.Storage.Host
import RhythmChart.Proofs.Level.Saving
import RhythmChart.Proofs.Level.Partition
import RhythmChart.Proofs.Conversion.Stages
import RhythmChart.Proofs.Conversion.Outcome
import RhythmChart.Proofs.Conversion.Assets

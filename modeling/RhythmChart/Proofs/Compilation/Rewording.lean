/-
The order of directives on a line does not matter, nor do directives that nobody knows.

A line may be reworded (`Line.Rewords`): its directives come in another order, some are given before and overridden,
some with unknown keys come or go; what is placed, and the last value of each known key, stay. Such lines are read as
frames that are heard alike, or refused with the same fault (`Dialect.readLine_reworded`), and frames are performed by
what is heard of them (`Performance.perform_known`). So a chart whose lines are reworded compiles to the same.

Main result: `compile_reworded`.
-/
import Mathlib.Tactic
import RhythmChart.Compilation
import RhythmChart.Proofs.Chart.Lines
import RhythmChart.Proofs.Line.Reading
import RhythmChart.Proofs.Performance.Known

namespace RhythmChart

/-! ## Lines -/

/-- `other` is `line` with its directives put differently -/
structure Line.Rewords (line other : List Char) : Prop where
  placing : placingPart line = placingPart other
  directives : ∀ part ∈ directiveParts line, '=' ∈ part
  otherDirectives : ∀ part ∈ directiveParts other, '=' ∈ part
  /-- the last directive with a known key, if there is one, gives it the same value -/
  values : ∀ d : Directive, lastValue (directiveParts line) d.key = lastValue (directiveParts other) d.key

theorem Line.rewords_iff {line other : List Char} :
    Rewords line other ↔
      placingPart line = placingPart other ∧ (∀ part ∈ directiveParts line, '=' ∈ part) ∧
        (∀ part ∈ directiveParts other, '=' ∈ part) ∧
        ∀ d ∈ Directive.order, lastValue (directiveParts line) d.key = lastValue (directiveParts other) d.key :=
  ⟨fun h => ⟨h.placing, h.directives, h.otherDirectives, fun d _ => h.values d⟩,
    fun ⟨placing, directives, others, values⟩ => ⟨placing, directives, others, fun d => values d d.mem_order⟩⟩

instance (line other : List Char) : Decidable (Line.Rewords line other) := decidable_of_iff' _ Line.rewords_iff

/-- **Reworded lines** are heard alike, or refused with the same fault. -/
theorem Dialect.readLine_reworded {line other : List Char} (h : Line.Rewords line other) (d : Dialect) (number : Nat) :
    (d.readLine number line).map Frame.known = (d.readLine number other).map Frame.known := by
  obtain ⟨ds, hread, hget⟩ := Line.readDirectives_ok h.directives .empty
  obtain ⟨ds', hread', hget'⟩ := Line.readDirectives_ok h.otherDirectives .empty
  rw [Line.readLine_placing hread, Line.readLine_placing hread', h.placing]
  cases Line.scan d .start (Text.unblanked (Line.placingPart other)) with
  | error fault => rfl
  | ok placements =>
    have heard : ∀ k : Directive, ds.get? k.key = ds'.get? k.key := by
      intro k
      rw [hget, hget', h.values]
    exact congrArg Except.ok (Frame.known_eq_iff.2 ⟨rfl, rfl, rfl, heard⟩)

/-! ## Charts -/

/-- what is heard of a chart's frames depends on what is heard of its lines -/
theorem Dialect.readChart_known (d : Dialect) (text : String) :
    (d.readChart text).map (List.map Frame.known) =
      collect ((Text.lines text.toList).mapIdx fun i line => (d.readLine (i + 1) line).map Frame.known) := by
  rw [readChart_eq, ← collect_map]
  congr 1
  exact List.ext_getElem? fun i => by simp [Function.comp_def]

theorem Dialect.readChart_reworded {text other : String}
    (h : List.Forall₂ Line.Rewords (Text.lines text.toList) (Text.lines other.toList)) (d : Dialect) :
    (d.readChart text).map (List.map Frame.known) = (d.readChart other).map (List.map Frame.known) := by
  have hlines : ∀ number, ∀ {lines others}, List.Forall₂ Line.Rewords lines others →
      lines.mapIdx (fun i line => (d.readLine (i + number) line).map Frame.known) =
        others.mapIdx fun i line => (d.readLine (i + number) line).map Frame.known := by
    intro number lines others reworded
    induction reworded generalizing number with
    | nil => rfl
    | cons first _ ih =>
      rw [List.mapIdx_cons, List.mapIdx_cons, readLine_reworded first]
      simp only [Nat.add_assoc]
      rw [ih (1 + number)]
  rw [readChart_known, readChart_known, hlines 1 h]

/-- the events of a compilation and the song they leave -/
def Compilation.outcome (c : Compilation) : List Event × Song := (c.events, c.song)

/-- a compilation comes to what its frames are heard to say -/
theorem compile_outcome (d : Dialect) (text : String) :
    (compile d text).map Compilation.outcome =
      match (d.readChart text).map (List.map Frame.known) with
      | .error e => .error (.unread e)
      | .ok frames => (perform frames .blank).mapError .unperformed := by
  unfold compile
  cases d.readChart text with
  | error e => rfl
  | ok frames =>
    simp only [Except.map, Performance.perform_known]
    cases perform frames .blank <;> rfl

/-- **Rewording a chart changes nothing.** Two charts with as many lines, each line of the one a rewording of the line
of the other, compile to the same events and the same song, or are refused with the same error. -/
theorem compile_reworded {text other : String}
    (reworded : List.Forall₂ Line.Rewords (Text.lines text.toList) (Text.lines other.toList)) (d : Dialect) :
    (compile d text).map Compilation.outcome = (compile d other).map Compilation.outcome := by
  rw [compile_outcome, compile_outcome, Dialect.readChart_reworded reworded]

/-- a procedure of a note and a wall, and a frame after silence that layers and splices it -/
def plainChart : String := "8Z[ZV2];bpm=90;proc=p\n2X;proc_add=p;proc_ins=p;intro_silence=2"

/-- the same with directives moved, overridden and made up -/
def rewordedChart : String :=
  "8Z[ZV2];proc=q;color=neon;bpm=9; proc = p;bpm=90;=\n2X;intro_silence=2;proc_ins=p;BPM=x;proc_add=p"

/-- both compile to seven events behind two seconds of silence -/
theorem plainChart_reworded :
    List.Forall₂ Line.Rewords (Text.lines plainChart.toList) (Text.lines rewordedChart.toList) ∧
      (compile .standard plainChart).map Compilation.outcome =
        (compile .standard rewordedChart).map Compilation.outcome ∧
      ((compile .standard plainChart).map fun c => (c.events.length, c.song.leadIn)).toOption = some (7, 2) := by
  have reworded : List.Forall₂ Line.Rewords (Text.lines plainChart.toList) (Text.lines rewordedChart.toList) := by
    decide +kernel
  exact ⟨reworded, compile_reworded reworded .standard, by decide +kernel⟩

end RhythmChart

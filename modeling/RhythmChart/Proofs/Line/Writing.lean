/-
Writing a frame and reading it back.

A placement is written with the symbols of the alphabet (`Writes`): a marker and a position for a note, two corners and
a decimal length between brackets for a wall. Blanks may stand anywhere among the symbols, and the directives follow in
any order (`WritesLine`). Symbols that are written carry their own marker, so what stood before them does not matter:
they spell items that place what was written after any other items (`Writes.spelled`). The parts after each `;` are the
entries again (`pieces_written`), and of distinct keys each has the value it was given
(`WritableDirectives.lastValue_written`).

Main result: `readLine_written`.
-/
import Mathlib.Tactic
import RhythmChart.Proofs.Alphabet.Coding
import RhythmChart.Proofs.Line.Reading

namespace RhythmChart.Line

/-! ## What can be written -/

/-- the symbols leave the mark of directives and the characters of lengths alone -/
structure Suited (a : Alphabet) : Prop where
  mark : ';' ∉ a.symbols
  opening : Text.isDigit a.opening = false ∧ a.opening ≠ '-'
  closing : Text.isDigit a.closing = false ∧ a.closing ≠ '-'

/-- a cell of the playfield -/
def OnField (x y : UInt8) : Prop := x.toNat < columns ∧ y.toNat < rows

/-- a red or blue note with a direction, or a bomb -/
structure WritableNote (n : Note) : Prop where
  cell : OnField n.x n.y
  kind : n.color = .bomb ↔ n.direction = none
  difficulties : n.difficulties = .all

/-- a wall between two cells, with a whole length of 32 bits -/
structure WritableWall (w : Wall) : Prop where
  corner₁ : OnField w.x1 w.y1
  corner₂ : OnField w.x2 w.y2
  length : ∃ n, leastLength ≤ n ∧ n ≤ mostLength ∧ w.length = Float.ofInt n
  difficulties : w.difficulties = .all

/-- every key once, and nothing in keys and values that reading would cut or trim -/
structure WritableDirectives (ds : Directives) : Prop where
  distinct : (ds.entries.map Prod.fst).Nodup
  keys : ∀ entry ∈ ds.entries, Text.trim entry.1.toList = entry.1.toList ∧ '=' ∉ entry.1.toList ∧ ';' ∉ entry.1.toList
  values : ∀ entry ∈ ds.entries, Text.trim entry.2.toList = entry.2.toList ∧ ';' ∉ entry.2.toList

/-- notes and walls in one order that keeps both -/
inductive Interleaves : List Note → List Wall → List Placement → Prop where
  | nil : Interleaves [] [] []
  | note {n : Note} {notes : List Note} {walls : List Wall} {placements : List Placement}
      (rest : Interleaves notes walls placements) : Interleaves (n :: notes) walls (.note n :: placements)
  | wall {w : Wall} {notes : List Note} {walls : List Wall} {placements : List Placement}
      (rest : Interleaves notes walls placements) : Interleaves notes (w :: walls) (.wall w :: placements)

/-! ## How it is written -/

/-- the symbols of placements; the color of a bomb's cell and of a corner is free -/
inductive Writes (a : Alphabet) : List Placement → List Char → Prop where
  | done : Writes a [] []
  | cut {p : Position} {dir : Direction} {c : Char} {placements : List Placement} {cs : List Char}
      (symbol : a.encodePosition? p = some c) (rest : Writes a placements cs) :
      Writes a (.note (.cut p dir) :: placements) (a.encodeDirection dir :: c :: cs)
  | bomb {p : Position} {c : Char} {placements : List Placement} {cs : List Char}
      (symbol : a.encodePosition? p = some c) (rest : Writes a placements cs) :
      Writes a (.note (.bomb p) :: placements) (a.bomb :: c :: cs)
  | wall {p₁ p₂ : Position} {c₁ c₂ : Char} {n : Int} {placements : List Placement} {cs : List Char}
      (corner₁ : a.encodePosition? p₁ = some c₁) (corner₂ : a.encodePosition? p₂ = some c₂) (least : leastLength ≤ n)
      (most : n ≤ mostLength) (rest : Writes a placements cs) :
      Writes a (.wall (.between p₁ p₂ (Float.ofInt n)) :: placements)
        (a.opening :: (c₁ :: c₂ :: Text.integerText n) ++ a.closing :: cs)

/-- one directive without its mark -/
def directiveText (entry : String × String) : List Char := entry.1.toList ++ '=' :: entry.2.toList

/-- a line with the placements and the directives: blanks anywhere among the symbols, then the entries in any order -/
def WritesLine (a : Alphabet) (placements : List Placement) (ds : Directives) (text : List Char) : Prop :=
  ∃ (placing : List Char) (entries : List (String × String)), Writes a placements (Text.unblanked placing) ∧
    entries.Perm ds.entries ∧ text = placing ++ entries.flatMap (';' :: directiveText ·)

/-! ## Placements -/

section Placements

variable {d : Dialect} {a : Alphabet} {before : List Item} {placements : List Placement} {cs : List Char}

theorem noteOf_direction (before : List Item) (dir : Direction) (p : Position) :
    noteOf (before ++ [.direction dir]) p = .cut p dir := by
  rw [noteOf, nearestMarker_snoc]
  rfl

theorem noteOf_bomb (before : List Item) (p : Position) : noteOf (before ++ [.bomb]) p = .bomb p := by
  rw [noteOf, nearestMarker_snoc]
  rfl

/-- a position is licensed by the marker just before it -/
theorem licensed_snoc (before : List Item) {marker : Item} (h : marker.isMarker = true) :
    Licensed (before ++ [marker]) :=
  ⟨before, marker, [], rfl, h, fun _ hi => absurd hi List.not_mem_nil, fun _ _ hi => absurd hi List.not_mem_nil⟩

theorem allowedAfter_marked {marker : Item} {p : Position} {items : List Item} (h : marker.isMarker = true)
    (rest : ∀ before, AllowedAfter d before items) : AllowedAfter d before (marker :: .position p :: items) := by
  refine allowedAfter_cons.2 ⟨fun _ hposition => ?_, allowedAfter_cons.2 ⟨fun _ _ => licensed_snoc before h, rest _⟩⟩
  cases marker with
  | direction _ | bomb => cases hposition
  | position _ | wall _ _ _ => cases h

theorem numeral_integerText (n : Int) : Numeral (Text.integerText n) n := by
  have hdigits : Text.digitsOf n.natAbs ≠ [] := Text.digitsOf_ne_nil n.natAbs
  have hall : ∀ c ∈ Text.digitsOf n.natAbs, Text.isDigit c = true := fun c => Text.isDigit_of_mem_digitsOf
  unfold Text.integerText
  split
  · rename_i hneg
    have hvalue : -(Text.digitsValue (Text.digitsOf n.natAbs) : Int) = n := by
      rw [Text.digitsValue_digitsOf]
      omega
    have hnumeral := Numeral.minus hdigits hall
    rwa [hvalue] at hnumeral
  · rename_i hpos
    have hvalue : (Text.digitsValue (Text.digitsOf n.natAbs) : Int) = n := by
      rw [Text.digitsValue_digitsOf]
      omega
    have hnumeral := Numeral.unsigned hdigits hall
    rwa [hvalue] at hnumeral

/-- what the characters of placements can be -/
theorem Writes.characters (h : Writes a placements cs) :
    ∀ c ∈ cs, c ∈ a.symbols ∨ Text.isDigit c = true ∨ c = '-' := by
  have hposition : ∀ {p : Position} {c : Char}, a.encodePosition? p = some c → c ∈ a.symbols := by
    intro p c symbol
    exact List.mem_append_left _ (List.mem_append_left _ (Alphabet.encodePosition?_mem symbol))
  have hdirection : ∀ dir, a.encodeDirection dir ∈ a.symbols := by
    intro dir
    exact List.mem_append_left _ (List.mem_append_right _ (a.encodeDirection_mem dir))
  have hmarks : a.bomb ∈ a.symbols ∧ a.opening ∈ a.symbols ∧ a.closing ∈ a.symbols := by
    simp [Alphabet.symbols]
  induction h with
  | done => exact List.forall_mem_nil _
  | @cut p dir c placements cs symbol _ ih =>
    exact List.forall_mem_cons.2 ⟨.inl (hdirection dir), List.forall_mem_cons.2 ⟨.inl (hposition symbol), ih⟩⟩
  | bomb symbol _ ih =>
    exact List.forall_mem_cons.2 ⟨.inl hmarks.1, List.forall_mem_cons.2 ⟨.inl (hposition symbol), ih⟩⟩
  | wall corner₁ corner₂ _ _ _ ih =>
    refine List.forall_mem_append.2 ⟨?_, List.forall_mem_cons.2 ⟨.inl hmarks.2.2, ih⟩⟩
    refine List.forall_mem_cons.2 ⟨.inl hmarks.2.1, List.forall_mem_cons.2 ⟨.inl (hposition corner₁), ?_⟩⟩
    exact List.forall_mem_cons.2 ⟨.inl (hposition corner₂), fun c hc => .inr (Text.mem_integerText hc)⟩

theorem Writes.not_blank (h : Writes a placements cs) {c : Char} (hc : c ∈ cs) : Text.isBlank c = false := by
  rcases h.characters c hc with hsymbol | hdigit | rfl
  · exact a.not_blank c hsymbol
  · have hrange := Text.isDigit_iff.1 hdigit
    simp only [Text.isBlank, Text.blankRanges, List.any_cons, List.any_nil, Bool.or_false, Bool.or_eq_false_iff,
      Bool.and_eq_false_iff, decide_eq_false_iff_not]
    omega
  · rfl

theorem Writes.mark_not_mem (h : Writes a placements cs) (suited : Suited a) : ';' ∉ cs := by
  intro hc
  rcases h.characters _ hc with hsymbol | hdigit | hminus
  · exact suited.mark hsymbol
  · cases hdigit
  · cases hminus

/-- no bracket is a corner or in a length -/
theorem unbracketed_written (suited : Suited a) {p₁ p₂ : Position} {c₁ c₂ : Char} (n : Int)
    (corner₁ : a.encodePosition? p₁ = some c₁) (corner₂ : a.encodePosition? p₂ = some c₂) :
    Unbracketed a (c₁ :: c₂ :: Text.integerText n) := by
  have houtside : ∀ bracket, (Text.isDigit bracket = false ∧ bracket ≠ '-') → c₁ ≠ bracket → c₂ ≠ bracket →
      bracket ∉ c₁ :: c₂ :: Text.integerText n := by
    rintro bracket ⟨hdigit, hminus⟩ hne₁ hne₂ hmem
    simp only [List.mem_cons] at hmem
    rcases hmem with rfl | rfl | hmem
    · exact hne₁ rfl
    · exact hne₂ rfl
    · rcases Text.mem_integerText hmem with h | h
      · rw [h] at hdigit
        cases hdigit
      · exact hminus h
  obtain ⟨_, hopening₁, hclosing₁⟩ := ne_marks_of_mem (List.mem_append_left _ (Alphabet.encodePosition?_mem corner₁))
  obtain ⟨_, hopening₂, hclosing₂⟩ := ne_marks_of_mem (List.mem_append_left _ (Alphabet.encodePosition?_mem corner₂))
  exact ⟨houtside _ suited.opening hopening₁ hopening₂, houtside _ suited.closing hclosing₁ hclosing₂⟩

/-- **Placements.** What is written spells items that place it again, whatever items stand before. -/
theorem Writes.spelled (h : Writes d.alphabet placements cs) (suited : Suited d.alphabet) :
    ∃ items, Spells d.alphabet items cs ∧
      ∀ before, placementsAfter before items = placements ∧ AllowedAfter d before items := by
  -- every position follows its own marker, so the induction can hold for all items before
  induction h with
  | done => exact ⟨[], .done, fun before => ⟨rfl, .nil⟩⟩
  | @cut p dir c placements cs symbol _ ih =>
    obtain ⟨items, hspells, hafter⟩ := ih
    refine ⟨.direction dir :: .position p :: items, ?_, fun before => ⟨?_, ?_⟩⟩
    · exact .direction (Alphabet.decodeDirection?_eq_some_iff.2 rfl)
        (.position (Alphabet.decodePosition?_eq_some_iff.2 symbol) hspells)
    · rw [placementsAfter, placementsAfter, noteOf_direction, (hafter _).1]
    · exact allowedAfter_marked rfl fun before => (hafter before).2
  | @bomb p c placements cs symbol _ ih =>
    obtain ⟨items, hspells, hafter⟩ := ih
    refine ⟨.bomb :: .position p :: items, ?_, fun before => ⟨?_, ?_⟩⟩
    · exact .bomb (.position (Alphabet.decodePosition?_eq_some_iff.2 symbol) hspells)
    · rw [placementsAfter, placementsAfter, noteOf_bomb, (hafter _).1]
    · exact allowedAfter_marked rfl fun before => (hafter before).2
  | @wall p₁ p₂ c₁ c₂ n placements cs corner₁ corner₂ least most _ ih =>
    obtain ⟨items, hspells, hafter⟩ := ih
    refine ⟨.wall p₁ p₂ n :: items, ?_, fun before => ⟨?_, ?_⟩⟩
    · exact .wall (unbracketed_written suited n corner₁ corner₂) (Alphabet.decodePosition?_eq_some_iff.2 corner₁)
        (Alphabet.decodePosition?_eq_some_iff.2 corner₂) ⟨numeral_integerText n, least, most⟩ hspells
    · rw [placementsAfter, (hafter _).1]
    · exact allowedAfter_cons.2 ⟨(fun _ hposition => by cases hposition), (hafter _).2⟩

end Placements

/-! ## Everything can be written -/

section Possible

variable {a : Alphabet} {notes : List Note} {walls : List Wall} {placements : List Placement}

theorem exists_symbol (a : Alphabet) {x y : UInt8} (h : OnField x y) {color : Color} (hcolor : color ≠ .bomb) :
    ∃ c, a.encodePosition? ⟨color, x, y⟩ = some c :=
  Option.isSome_iff_exists.1 (Alphabet.encodePosition?_isSome_iff.2 ⟨h, hcolor⟩)

theorem WritableNote.writes {n : Note} (h : WritableNote n) {cs : List Char} (rest : Writes a placements cs) :
    ∃ cs, Writes a (.note n :: placements) cs := by
  obtain ⟨x, y, color, direction, difficulties⟩ := n
  obtain ⟨hcell, hkind, hdifficulties⟩ := h
  dsimp only at hcell hkind hdifficulties
  subst hdifficulties
  cases direction with
  | none =>
    obtain rfl := hkind.2 rfl
    have hred : Color.red ≠ .bomb := by decide
    obtain ⟨c, symbol⟩ := exists_symbol a hcell hred
    exact ⟨_, .bomb symbol rest⟩
  | some dir =>
    have hcolored : color ≠ .bomb := fun hbomb => by cases hkind.1 hbomb
    obtain ⟨c, symbol⟩ := exists_symbol a hcell hcolored
    exact ⟨_, .cut symbol rest⟩

theorem WritableWall.writes {w : Wall} (h : WritableWall w) {cs : List Char} (rest : Writes a placements cs) :
    ∃ cs, Writes a (.wall w :: placements) cs := by
  obtain ⟨x1, y1, x2, y2, length, difficulties⟩ := w
  obtain ⟨hcorner₁, hcorner₂, ⟨n, least, most, hlength⟩, hdifficulties⟩ := h
  dsimp only at hcorner₁ hcorner₂ hlength hdifficulties
  subst hlength hdifficulties
  have hred : Color.red ≠ .bomb := by decide
  obtain ⟨c₁, corner₁⟩ := exists_symbol a hcorner₁ hred
  obtain ⟨c₂, corner₂⟩ := exists_symbol a hcorner₂ hred
  exact ⟨_, .wall corner₁ corner₂ least most rest⟩

theorem Interleaves.writes (a : Alphabet) (h : Interleaves notes walls placements)
    (hnotes : ∀ n ∈ notes, WritableNote n) (hwalls : ∀ w ∈ walls, WritableWall w) : ∃ cs, Writes a placements cs := by
  induction h with
  | nil => exact ⟨[], .done⟩
  | note _ ih =>
    obtain ⟨cs, rest⟩ := ih (fun n hn => hnotes n (List.mem_cons_of_mem _ hn)) hwalls
    exact (hnotes _ List.mem_cons_self).writes rest
  | wall _ ih =>
    obtain ⟨cs, rest⟩ := ih hnotes fun w hw => hwalls w (List.mem_cons_of_mem _ hw)
    exact (hwalls _ List.mem_cons_self).writes rest

theorem Interleaves.contents (h : Interleaves notes walls placements) :
    placements.filterMap (·.note?) = notes ∧ placements.filterMap (·.wall?) = walls := by
  induction h with
  | nil => exact ⟨rfl, rfl⟩
  | note _ ih => exact ⟨congrArg _ ih.1, ih.2⟩
  | wall _ ih => exact ⟨ih.1, congrArg _ ih.2⟩

end Possible

/-! ## Directives -/

section Directives

variable {entry : String × String} {entries : List (String × String)} {ds : Directives} {key value : String}

/-- after a text without `;` the pieces are that text and the directives -/
theorem pieces_written {placing : List Char} (hplacing : ';' ∉ placing)
    (h : ∀ entry ∈ entries, ';' ∉ directiveText entry) :
    Text.pieces ';' (placing ++ entries.flatMap (';' :: directiveText ·)) = (placing, entries.map directiveText) := by
  induction entries generalizing placing with
  | nil => rw [List.flatMap_nil, List.append_nil, Text.pieces_of_not_mem hplacing, List.map_nil]
  | cons entry entries ih =>
    rw [List.flatMap_cons, List.cons_append, Text.pieces_append_mark hplacing,
      ih (h entry List.mem_cons_self) fun e he => h e (List.mem_cons_of_mem _ he)]
    rfl

theorem WritableDirectives.mark_not_mem (h : WritableDirectives ds) (hentry : entry ∈ ds.entries) :
    ';' ∉ directiveText entry := by
  simp [directiveText, (h.keys entry hentry).2.2, (h.values entry hentry).2]

/-- a directive is cut after its key -/
theorem WritableDirectives.span_key (h : WritableDirectives ds) (hentry : entry ∈ ds.entries) :
    (directiveText entry).takeWhile (· ≠ '=') = entry.1.toList ∧
      (directiveText entry).dropWhile (· ≠ '=') = '=' :: entry.2.toList := by
  have hkey : ∀ c ∈ entry.1.toList, decide (c ≠ '=') = true := by
    intro c hc
    have hne : c ≠ '=' := by
      rintro rfl
      exact (h.keys entry hentry).2.1 hc
    exact decide_eq_true hne
  constructor
  · rw [directiveText, List.takeWhile_append_of_pos hkey]
    simp
  · rw [directiveText, List.dropWhile_append_of_pos hkey]
    simp

theorem WritableDirectives.keyOf_text (h : WritableDirectives ds) (hentry : entry ∈ ds.entries) :
    keyOf (directiveText entry) = entry.1 := by
  rw [keyOf, (h.span_key hentry).1, (h.keys entry hentry).1, String.ofList_toList]

theorem WritableDirectives.valueOf_text (h : WritableDirectives ds) (hentry : entry ∈ ds.entries) :
    valueOf (directiveText entry) = entry.2 := by
  rw [valueOf, (h.span_key hentry).2, List.tail_cons, (h.values entry hentry).1, String.ofList_toList]

/-- distinct keys have one value each -/
theorem WritableDirectives.unique (h : WritableDirectives ds) {value' : String} (hvalue : (key, value) ∈ ds.entries)
    (hvalue' : (key, value') ∈ ds.entries) : value = value' :=
  congrArg Prod.snd (List.inj_on_of_nodup_map h.distinct hvalue hvalue' rfl)

theorem WritableDirectives.get?_eq_some_iff (h : WritableDirectives ds) :
    ds.get? key = some value ↔ (key, value) ∈ ds.entries := by
  have hmem : ∀ {value}, ds.get? key = some value → (key, value) ∈ ds.entries := by
    intro value hget
    obtain ⟨before, after, hentries, _⟩ := List.lookup_eq_some_iff.1 hget
    rw [hentries]
    exact List.mem_append_right _ List.mem_cons_self
  refine ⟨hmem, fun hvalue => ?_⟩
  cases hget : ds.get? key with
  | none =>
    have hnone := List.lookup_eq_none_iff.1 hget _ hvalue
    simp at hnone
  | some value' => rw [h.unique hvalue (hmem hget)]

/-- the last part with a key comes from an entry with that key -/
theorem WritableDirectives.mem_of_lastValue (h : WritableDirectives ds) (horder : entries.Perm ds.entries)
    (hlast : lastValue (entries.map directiveText) key = some value) : (key, value) ∈ ds.entries := by
  obtain ⟨part, hfind, rfl⟩ := Option.map_eq_some_iff.1 hlast
  have hkey : keyOf part = key := by simpa using List.find?_some hfind
  obtain ⟨entry, hmem, rfl⟩ := List.mem_map.1 (List.mem_reverse.1 (List.mem_of_find?_eq_some hfind))
  have hentry := horder.mem_iff.1 hmem
  rw [h.keyOf_text hentry] at hkey
  rw [h.valueOf_text hentry, ← hkey]
  exact hentry

/-- **Directives.** Of the written parts, each key has its value, in whatever order they stand. -/
theorem WritableDirectives.lastValue_written (h : WritableDirectives ds) (horder : entries.Perm ds.entries)
    (key : String) : lastValue (entries.map directiveText) key = ds.get? key := by
  ext value
  rw [h.get?_eq_some_iff]
  refine ⟨h.mem_of_lastValue horder, fun hvalue => ?_⟩
  have hfound : (lastValue (entries.map directiveText) key).isSome := by
    have hpart : directiveText (key, value) ∈ (entries.map directiveText).reverse :=
      List.mem_reverse.2 (List.mem_map_of_mem (horder.mem_iff.2 hvalue))
    rw [lastValue, Option.isSome_map, List.find?_isSome]
    exact ⟨_, hpart, decide_eq_true (h.keyOf_text hvalue)⟩
  obtain ⟨value', hvalue'⟩ := Option.isSome_iff_exists.1 hfound
  rw [hvalue', h.unique hvalue (h.mem_of_lastValue horder hvalue')]

end Directives

/-! ## Whole lines -/

/-- a written line is in the grammar, with the placements and the directives that were written -/
theorem WritesLine.reads {d : Dialect} {placements : List Placement} {ds : Directives} {text : List Char}
    (h : WritesLine d.alphabet placements ds text) (suited : Suited d.alphabet) (hds : WritableDirectives ds) :
    ∃ items, Reads d text items ∧ placementsAfter [] items = placements ∧
      ∀ key, lastValue (directiveParts text) key = ds.get? key := by
  obtain ⟨placing, entries, hwrites, horder, rfl⟩ := h
  have hplacing : ';' ∉ placing := fun hmark =>
    hwrites.mark_not_mem suited (Text.mem_unblanked.2 ⟨hmark, rfl⟩)
  have hpieces := (pieces_eq_splitOn _).symm.trans
    (pieces_written hplacing fun entry hentry => hds.mark_not_mem (horder.mem_iff.1 hentry))
  obtain ⟨hfirst, hparts⟩ := Prod.mk.inj hpieces
  obtain ⟨items, hspells, hafter⟩ := hwrites.spelled suited
  refine ⟨items, ⟨fun part hpart => ?_, by rwa [hfirst], allowed_iff.2 (hafter []).2⟩, (hafter []).1, ?_⟩
  · rw [hparts] at hpart
    obtain ⟨entry, _, rfl⟩ := List.mem_map.1 hpart
    simp [directiveText]
  · rw [hparts]
    exact hds.lastValue_written horder

/-- **Reading inverts writing.** Whatever notes, walls and directives can be written have a written line, and every
line that writes them, in any order of notes among walls and of directives and with blanks anywhere among the symbols,
is read as the frame with these notes, these walls and these directives. -/
theorem readLine_written (d : Dialect) (suited : Suited d.alphabet) (line : Nat) {notes : List Note} {walls : List Wall}
    {placements : List Placement} {ds : Directives} (hnotes : ∀ n ∈ notes, WritableNote n)
    (hwalls : ∀ w ∈ walls, WritableWall w) (hplacements : Interleaves notes walls placements)
    (hds : WritableDirectives ds) :
    (∃ text, WritesLine d.alphabet placements ds text) ∧
      ∀ text, WritesLine d.alphabet placements ds text →
        ∃ frame, d.readLine line text = .ok frame ∧ frame.line = line ∧ frame.notes = notes ∧ frame.walls = walls ∧
          ∀ key, frame.directives.get? key = ds.get? key := by
  constructor
  · obtain ⟨cs, hwrites⟩ := hplacements.writes d.alphabet hnotes hwalls
    -- without any blank, and with the directives as they stand
    have hplain : Text.unblanked cs = cs := List.filter_eq_self.2 fun c hc => by simp [hwrites.not_blank hc]
    exact ⟨_, cs, ds.entries, by rwa [hplain], .refl _, rfl⟩
  · intro text hwrites
    obtain ⟨items, hreads, hplaced, hlast⟩ := hwrites.reads suited hds
    obtain ⟨frame, hread, hline, hget, hframeNotes, hframeWalls⟩ := hreads.readLine line
    refine ⟨frame, hread, hline, ?_, ?_, fun key => (hget key).trans (hlast key)⟩
    · rw [hframeNotes, ← notes_placements, hplaced, hplacements.contents.1]
    · rw [hframeWalls, ← walls_placements [], hplaced, hplacements.contents.2]

/-- positions written with digits, signs and `=` -/
def keypad : Alphabet where
  positions := "0123456789=-+ABCDEFGHIJK".toList
  directions := "abcdefghi".toList
  bomb := '*'
  opening := '<'
  closing := '>'
  positions_length := by decide
  directions_length := by decide
  distinct := ((@Alphabet.firstFault_eq_none [] _).1 (by rfl)).2.2
  not_blank := ((@Alphabet.firstFault_eq_none [] _).1 (by rfl)).1

/-- a note, a wall and a bomb, read strictly, with blanks in the length and `=` as a position and in a value -/
theorem keypad_line_read_back :
    ∃ frame, Dialect.readLine ⟨keypad, true⟩ 3 " a0<0K - 1 2>*=;bpm=120;proc=x=y,2".toList = .ok frame ∧
      frame.line = 3 ∧ frame.notes = [.cut ⟨.red, 0, 0⟩ .up, .bomb ⟨.red, 2, 2⟩] ∧
      frame.walls = [.between ⟨.red, 0, 0⟩ ⟨.blue, 3, 2⟩ (Float.ofInt (-12))] ∧
      frame.directives.get? "proc" = some "x=y,2" := by
  have suited : Suited keypad := ⟨by decide, by decide, by decide⟩
  have hds : WritableDirectives ⟨[("proc", "x=y,2"), ("bpm", "120")]⟩ := ⟨by decide, by decide, by decide⟩
  have hnotes : ∀ n ∈ [Note.cut ⟨.red, 0, 0⟩ .up, .bomb ⟨.red, 2, 2⟩], WritableNote n := by
    simp only [List.mem_cons, List.not_mem_nil, or_false, forall_eq_or_imp, forall_eq]
    exact ⟨⟨⟨by decide, by decide⟩, by decide, rfl⟩, ⟨⟨by decide, by decide⟩, by decide, rfl⟩⟩
  have hwalls : ∀ w ∈ [Wall.between ⟨.red, 0, 0⟩ ⟨.blue, 3, 2⟩ (Float.ofInt (-12))], WritableWall w := by
    simp only [List.mem_cons, List.not_mem_nil, or_false, forall_eq]
    exact ⟨⟨by decide, by decide⟩, ⟨by decide, by decide⟩, ⟨-12, by decide, by decide, rfl⟩, rfl⟩
  have corner₁ : keypad.encodePosition? ⟨.red, 0, 0⟩ = some '0' := by decide
  have corner₂ : keypad.encodePosition? ⟨.blue, 3, 2⟩ = some 'K' := by decide
  have cell : keypad.encodePosition? ⟨.red, 2, 2⟩ = some '=' := by decide
  have hwrites : WritesLine keypad
      [.note (.cut ⟨.red, 0, 0⟩ .up), .wall (.between ⟨.red, 0, 0⟩ ⟨.blue, 3, 2⟩ (Float.ofInt (-12))),
        .note (.bomb ⟨.red, 2, 2⟩)]
      ⟨[("proc", "x=y,2"), ("bpm", "120")]⟩ " a0<0K - 1 2>*=;bpm=120;proc=x=y,2".toList := by
    refine ⟨" a0<0K - 1 2>*=".toList, [("bpm", "120"), ("proc", "x=y,2")], ?_, .swap .., by decide⟩
    have hplacing : Text.unblanked " a0<0K - 1 2>*=".toList = "a0<0K-12>*=".toList := by decide
    rw [hplacing]
    exact .cut corner₁ (.wall corner₁ corner₂ (by decide) (by decide) (.bomb cell .done))
  obtain ⟨frame, hread, hline, hframeNotes, hframeWalls, hget⟩ :=
    (readLine_written ⟨keypad, true⟩ suited 3 hnotes hwalls (.note (.wall (.note .nil))) hds).2 _ hwrites
  exact ⟨frame, hread, hline, hframeNotes, hframeWalls, (hget "proc").trans rfl⟩

end RhythmChart.Line

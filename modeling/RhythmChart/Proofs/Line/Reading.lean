/-
Reading a line accepts its grammar and gives the meaning.

The scan goes over the symbols once and keeps a direction, a pending bomb and an open wall. Between two items it is in
a state that the items so far determine (`scanAfter`): so what it places for the next item is what the item means
after those before it (`scan_items`), and a flaw after them is the fault it answers (`scan_flaw`). Every text is a
sequence of items, or one followed by a flaw (`spells_or_flaw`); so these two cases are all.

Main result: `readLine_exact`.
-/
import Mathlib.Tactic
import RhythmChart.Proofs.Line.Grammar

namespace RhythmChart.Line

/-! ## The scan between two items -/

/-- the direction that the items leave armed -/
def armedBy (items : List Item) : Option Direction :=
  match nearestMarker items with
  | some (.direction d) => some d
  | _ => none

/-- whether a bomb marker of the items still waits for its position -/
def awaitsBomb (items : List Item) : Bool :=
  decide (items.reverse.find? (fun i => i.isMarker || i.isPosition) = some .bomb)

/-- the state of the scan after the given items -/
def scanAfter (items : List Item) : Scan := ⟨armedBy items, awaitsBomb items, none⟩

/-- the last item with a property, by where it stands -/
theorem find?_reverse_eq_some_iff {q : Item → Bool} {items : List Item} {m : Item} :
    items.reverse.find? q = some m ↔
      ∃ earlier between, items = earlier ++ m :: between ∧ q m = true ∧ ∀ i ∈ between, q i = false := by
  rw [List.find?_eq_some_iff_append]
  constructor
  · rintro ⟨hm, as, bs, hitems, has⟩
    refine ⟨bs.reverse, as.reverse, ?_, hm, fun i hi => by simpa using has i (List.mem_reverse.1 hi)⟩
    rw [← List.reverse_reverse items, hitems]
    simp
  · rintro ⟨earlier, between, rfl, hm, hbetween⟩
    refine ⟨hm, between.reverse, earlier.reverse, by simp, fun i hi => ?_⟩
    rw [hbetween i (List.mem_reverse.1 hi)]
    rfl

theorem nearestMarker_snoc (items : List Item) (i : Item) :
    nearestMarker (items ++ [i]) = if i.isMarker then some i else nearestMarker items := by
  unfold nearestMarker
  rw [List.reverse_append, List.reverse_singleton, List.singleton_append, List.find?_cons]
  cases i.isMarker <;> rfl

theorem scanAfter_direction (items : List Item) (d : Direction) :
    scanAfter (items ++ [.direction d]) = ⟨some d, false, none⟩ := by
  simp [scanAfter, armedBy, awaitsBomb, nearestMarker_snoc, Item.isMarker]

theorem scanAfter_bomb (items : List Item) : scanAfter (items ++ [.bomb]) = ⟨none, true, none⟩ := by
  simp [scanAfter, armedBy, awaitsBomb, nearestMarker_snoc, Item.isMarker]

theorem scanAfter_position (items : List Item) (p : Position) :
    scanAfter (items ++ [.position p]) = ⟨armedBy items, false, none⟩ := by
  simp [scanAfter, armedBy, awaitsBomb, nearestMarker_snoc, Item.isMarker, Item.isPosition]

theorem scanAfter_wall (items : List Item) (p₁ p₂ : Position) (n : Int) :
    scanAfter (items ++ [.wall p₁ p₂ n]) = scanAfter items := by
  have hawaits : awaitsBomb (items ++ [.wall p₁ p₂ n]) = awaitsBomb items := by
    unfold awaitsBomb
    rw [List.reverse_append, List.reverse_singleton, List.singleton_append, List.find?_cons]
    rfl
  rw [scanAfter, scanAfter, hawaits, armedBy, nearestMarker_snoc]
  rfl

theorem noteOf_eq (items : List Item) (p : Position) :
    noteOf items p = match armedBy items with
      | some d => .cut p d
      | none => .bomb p := by
  unfold noteOf armedBy
  cases nearestMarker items with
  | none => rfl
  | some marker => cases marker <;> rfl

/-- a waiting bomb is the nearest marker -/
theorem armedBy_of_awaitsBomb {items : List Item} (h : awaitsBomb items = true) : armedBy items = none := by
  have hnearest : ∀ l : List Item, l.find? (fun i => i.isMarker || i.isPosition) = some .bomb →
      l.find? Item.isMarker = some .bomb := by
    intro l hl
    induction l with
    | nil => cases hl
    | cons i l ih =>
      rw [List.find?_cons] at hl ⊢
      cases i with
      | direction d => cases hl
      | bomb => rfl
      | position p => cases hl
      | wall p₁ p₂ n => exact ih hl
  have hfind := hnearest _ (of_decide_eq_true h)
  unfold armedBy nearestMarker
  rw [hfind]

/-- a position is licensed when a direction is armed or a bomb waits -/
theorem licensed_iff {items : List Item} :
    Licensed items ↔ (∃ d, armedBy items = some d) ∨ awaitsBomb items = true := by
  constructor
  · rintro ⟨earlier, marker, between, hitems, hmarker, hbetween, hunused⟩
    cases marker with
    | direction d =>
      have hnearest : nearestMarker items = some (.direction d) :=
        find?_reverse_eq_some_iff.2 ⟨earlier, between, hitems, rfl, hbetween⟩
      exact .inl ⟨d, by rw [armedBy, hnearest]⟩
    | bomb =>
      refine .inr (decide_eq_true (find?_reverse_eq_some_iff.2 ⟨earlier, between, hitems, rfl, fun i hi => ?_⟩))
      rw [hbetween i hi, hunused rfl i hi]
      rfl
    | position p => cases hmarker
    | wall p₁ p₂ n => cases hmarker
  · rintro (⟨d, hd⟩ | hawaits)
    · have hnearest : nearestMarker items = some (.direction d) := by
        unfold armedBy at hd
        split at hd
        · rename_i hmarker
          cases hd
          exact hmarker
        · cases hd
      obtain ⟨earlier, between, hitems, hmarker, hbetween⟩ := find?_reverse_eq_some_iff.1 hnearest
      exact ⟨earlier, _, between, hitems, hmarker, hbetween, fun h => by cases h⟩
    · obtain ⟨earlier, between, hitems, _, hbetween⟩ := find?_reverse_eq_some_iff.1 (of_decide_eq_true hawaits)
      refine ⟨earlier, _, between, hitems, rfl, fun i hi => ?_, fun _ i hi => ?_⟩
      · exact (Bool.or_eq_false_iff.1 (hbetween i hi)).1
      · exact (Bool.or_eq_false_iff.1 (hbetween i hi)).2

/-! ## One item -/

section Items

variable {d : Dialect} {s s' : Scan} {c : Char} {cs rest : List Char} {placed : Option Placement}

theorem scan_step (h : s.step d c = .ok (s', placed)) :
    scan d s (c :: rest) = (scan d s' rest).map (placed.toList ++ ·) := by
  rw [scan, h]
  simp only
  cases scan d s' rest <;> rfl

theorem scan_step_silent (h : s.step d c = .ok (s', none)) : scan d s (c :: rest) = scan d s' rest := by
  rw [scan_step h]
  cases scan d s' rest <;> rfl

theorem scan_step_error {fault : Fault} (h : s.step d c = .error fault) : scan d s (c :: rest) = .error fault := by
  rw [scan, h]

/-- inside a wall the symbols are kept as they come -/
theorem scan_body {body : List Char} (inside : Unbracketed d.alphabet body) (armed : Option Direction) (bomb : Bool)
    (text : List Char) :
    scan d ⟨armed, bomb, some text⟩ (body ++ rest) = scan d ⟨armed, bomb, some (body.reverse ++ text)⟩ rest := by
  induction body generalizing text with
  | nil => rfl
  | cons c body ih =>
    obtain ⟨hopening, hclosing⟩ := inside
    simp only [List.mem_cons, not_or] at hopening hclosing
    have hstep : Scan.step d ⟨armed, bomb, some text⟩ c = .ok (⟨armed, bomb, some (c :: text)⟩, none) := by
      rw [Scan.step]
      simp only [Ne.symm hopening.1, Ne.symm hclosing.1, if_false]
    rw [List.cons_append, scan_step_silent hstep, ih ⟨hopening.2, hclosing.2⟩, List.reverse_cons, List.append_assoc,
      List.singleton_append]

/-- an opening bracket and the symbols up to the next bracket -/
theorem scan_opening {body : List Char} (inside : Unbracketed d.alphabet body) (before : List Item) :
    scan d (scanAfter before) (d.alphabet.opening :: body ++ rest) =
      scan d ⟨armedBy before, awaitsBomb before, some body.reverse⟩ rest := by
  have hstep : (scanAfter before).step d d.alphabet.opening =
      .ok (⟨armedBy before, awaitsBomb before, some []⟩, none) := by
    rw [Scan.step]
    simp only [scanAfter, classify_opening]
  rw [List.cons_append, scan_step_silent hstep, scan_body inside, List.append_nil]

/-- a closing bracket, when the text between the brackets makes a wall -/
theorem scan_closing {body : List Char} {wall : Wall} (h : readWall d.alphabet body = .ok wall) (before : List Item) :
    scan d ⟨armedBy before, awaitsBomb before, some body.reverse⟩ (d.alphabet.closing :: rest) =
      (scan d (scanAfter before) rest).map (.wall wall :: ·) := by
  have hstep : Scan.step d ⟨armedBy before, awaitsBomb before, some body.reverse⟩ d.alphabet.closing =
      .ok (scanAfter before, some (.wall wall)) := by
    rw [Scan.step]
    simp only [(marks_distinct d.alphabet).2.2, if_false, if_true, List.reverse_reverse, h, scanAfter]
  rw [scan_step hstep]
  rfl

/-- a closing bracket, when it does not -/
theorem scan_closing_error {body : List Char} {fault : Fault} (h : readWall d.alphabet body = .error fault)
    (before : List Item) :
    scan d ⟨armedBy before, awaitsBomb before, some body.reverse⟩ (d.alphabet.closing :: rest) = .error fault := by
  apply scan_step_error
  rw [Scan.step]
  simp only [(marks_distinct d.alphabet).2.2, if_false, if_true, List.reverse_reverse, h]

theorem scan_direction {dir : Direction} (symbol : d.alphabet.decodeDirection? c = some dir) (before : List Item) :
    scan d (scanAfter before) (c :: rest) = scan d (scanAfter (before ++ [.direction dir])) rest := by
  apply scan_step_silent
  rw [Scan.step, scanAfter_direction]
  simp only [scanAfter, classify_direction symbol]

theorem scan_bomb (before : List Item) :
    scan d (scanAfter before) (d.alphabet.bomb :: rest) = scan d (scanAfter (before ++ [.bomb])) rest := by
  apply scan_step_silent
  rw [Scan.step, scanAfter_bomb]
  simp only [scanAfter, classify_bomb]

theorem step_position {p : Position} (symbol : d.alphabet.decodePosition? c = some p) (armed : Option Direction)
    (bomb : Bool) :
    Scan.step d ⟨armed, bomb, none⟩ c =
      if bomb then .ok (⟨armed, false, none⟩, some (.note (.bomb p)))
      else match armed with
        | some dir => .ok (⟨armed, bomb, none⟩, some (.note (.cut p dir)))
        | none =>
          if d.strict then .error (.positionBeforeDirection c)
          else .ok (⟨armed, bomb, none⟩, some (.note (.bomb p))) := by
  cases bomb <;> cases armed <;> simp [Scan.step, classify_position symbol]

/-- a position, when it is licensed or need not be -/
theorem scan_position {p : Position} {before : List Item} (symbol : d.alphabet.decodePosition? c = some p)
    (license : d.strict = true → Licensed before) :
    scan d (scanAfter before) (c :: rest) =
      (scan d (scanAfter (before ++ [.position p])) rest).map (.note (noteOf before p) :: ·) := by
  have hstep : (scanAfter before).step d c =
      .ok (scanAfter (before ++ [.position p]), some (.note (noteOf before p))) := by
    rw [scanAfter_position, noteOf_eq, scanAfter, step_position symbol]
    by_cases hawaits : awaitsBomb before = true
    · rw [if_pos hawaits, armedBy_of_awaitsBomb hawaits]
    · rw [if_neg hawaits, Bool.eq_false_of_not_eq_true hawaits]
      cases harmed : armedBy before with
      | some dir => rfl
      | none =>
        have hlenient : ¬ d.strict = true := by
          intro hstrict
          rcases licensed_iff.1 (license hstrict) with ⟨dir, hdir⟩ | hbomb
          · rw [harmed] at hdir
            cases hdir
          · exact hawaits hbomb
        exact if_neg hlenient
  rw [scan_step hstep]
  rfl

end Items

/-! ## Walls -/

section Walls

variable {a : Alphabet} {c₁ c₂ : Char} {digits : List Char} {p₁ p₂ : Position}

theorem readWall_ok {n : Int} (corner₁ : a.decodePosition? c₁ = some p₁) (corner₂ : a.decodePosition? c₂ = some p₂)
    (length : Length digits n) :
    readWall a (c₁ :: c₂ :: digits) = .ok (.between p₁ p₂ (Float.ofInt n)) := by
  simp only [readWall, corner₁, corner₂, readInteger_eq_some_iff.2 length]

theorem readWall_length (corner₁ : a.decodePosition? c₁ = some p₁) (corner₂ : a.decodePosition? c₂ = some p₂)
    (numeral : ∀ n, ¬ Length digits n) :
    readWall a (c₁ :: c₂ :: digits) = .error (.invalidLength (.ofList digits)) := by
  have hnone : Text.readInteger leastLength mostLength digits = none := by
    rw [Option.eq_none_iff_forall_ne_some]
    intro n hn
    exact numeral n (readInteger_eq_some_iff.1 hn)
  simp only [readWall, corner₁, corner₂, hnone]

theorem readWall_incomplete {body : List Char} (short : body.length < 2) :
    readWall a body = .error (.incompleteWall (.ofList body)) := by
  match body, short with
  | [], _ => rfl
  | [_], _ => rfl
  | _ :: _ :: _, short => simp at short

end Walls

/-! ## Many items -/

/-- what the items place, in order, when others stand before them -/
def placementsAfter (before : List Item) : List Item → List Placement
  | [] => []
  | .position p :: rest => .note (noteOf before p) :: placementsAfter (before ++ [.position p]) rest
  | .wall p₁ p₂ n :: rest =>
    .wall (.between p₁ p₂ (Float.ofInt n)) :: placementsAfter (before ++ [.wall p₁ p₂ n]) rest
  | .direction dir :: rest => placementsAfter (before ++ [.direction dir]) rest
  | .bomb :: rest => placementsAfter (before ++ [.bomb]) rest

/-- in a strict dialect every position of the items is licensed by what stands before it -/
def AllowedAfter (d : Dialect) (before items : List Item) : Prop :=
  d.strict = true → ∀ earlier p later, items = earlier ++ .position p :: later → Licensed (before ++ earlier)

section Runs

variable {d : Dialect} {before items : List Item} {cs : List Char}

theorem allowed_iff : Allowed d items ↔ AllowedAfter d [] items := Iff.rfl

theorem AllowedAfter.nil : AllowedAfter d before [] := by
  intro _ earlier p later h
  simp at h

theorem allowedAfter_cons {i : Item} :
    AllowedAfter d before (i :: items) ↔
      (d.strict = true → i.isPosition = true → Licensed before) ∧ AllowedAfter d (before ++ [i]) items := by
  constructor
  · intro h
    refine ⟨fun hstrict hposition => ?_, fun hstrict earlier p later hitems => ?_⟩
    · cases i with
      | position p => simpa using h hstrict [] p items rfl
      | direction _ | bomb | wall _ _ _ => cases hposition
    · simpa using h hstrict (i :: earlier) p later (by rw [hitems]; rfl)
  · rintro ⟨hfirst, hrest⟩ hstrict earlier p later hitems
    cases earlier with
    | nil =>
      cases hitems
      simpa using hfirst hstrict rfl
    | cons j earlier =>
      cases hitems
      simpa using hrest hstrict earlier p later rfl

theorem map_append_map (xs ys : List Placement) (r : Except Fault (List Placement)) :
    (r.map (ys ++ ·)).map (xs ++ ·) = r.map ((xs ++ ys) ++ ·) := by
  cases r <;> simp [Except.map]

/-- **Items.** The scan of items places what they mean, and goes on in the state that they determine. -/
theorem scan_items (h : Spells d.alphabet items cs) (allowed : AllowedAfter d before items) (rest : List Char) :
    scan d (scanAfter before) (cs ++ rest) =
      (scan d (scanAfter (before ++ items)) rest).map (placementsAfter before items ++ ·) := by
  induction h generalizing before with
  | done =>
    rw [List.append_nil, List.nil_append]
    cases scan d (scanAfter before) rest <;> rfl
  | @direction c dir items cs symbol _ ih =>
    rw [List.cons_append, scan_direction symbol, ih (allowedAfter_cons.1 allowed).2, List.append_assoc]
    rfl
  | @bomb items cs _ ih =>
    rw [List.cons_append, scan_bomb, ih (allowedAfter_cons.1 allowed).2, List.append_assoc]
    rfl
  | @position c p items cs symbol _ ih =>
    obtain ⟨license, hrest⟩ := allowedAfter_cons.1 allowed
    rw [List.cons_append, scan_position symbol fun hstrict => license hstrict rfl, ih hrest, List.append_assoc]
    exact map_append_map [_] _ _
  | @wall c₁ c₂ digits p₁ p₂ n items cs inside corner₁ corner₂ length _ ih =>
    rw [List.append_assoc, scan_opening inside, List.cons_append,
      scan_closing (readWall_ok corner₁ corner₂ length), ← scanAfter_wall before p₁ p₂ n,
      ih (allowedAfter_cons.1 allowed).2, List.append_assoc]
    exact map_append_map [_] _ _

/-- **Flaws.** The scan answers the flaw that it comes to. -/
theorem scan_flaw {fault : Fault} (h : Flaw d before cs fault) : scan d (scanAfter before) cs = .error fault := by
  cases h with
  | @stray c rest symbol =>
    apply scan_step_error
    rw [Scan.step]
    rcases symbol with rfl | hother
    · simp only [scanAfter, classify_closing]
    · simp only [scanAfter, classify_other hother]
  | @unlicensed c p rest strict symbol license =>
    apply scan_step_error
    have hnone : armedBy before = none := by
      rw [Option.eq_none_iff_forall_ne_some]
      exact fun dir hdir => license (licensed_iff.2 (.inl ⟨dir, hdir⟩))
    have hnot : ¬ awaitsBomb before = true := fun hbomb => license (licensed_iff.2 (.inr hbomb))
    rw [scanAfter, step_position symbol, if_neg hnot, hnone]
    exact if_pos strict
  | @nested body rest inside =>
    rw [scan_opening inside]
    apply scan_step_error
    rw [Scan.step]
    simp only [if_true]
  | @unclosed body inside =>
    have hopen : scan d (scanAfter before) (d.alphabet.opening :: body ++ []) = _ := scan_opening inside before
    rw [List.append_nil] at hopen
    rw [hopen, scan]
    simp only [List.reverse_reverse]
  | @incomplete body rest inside short =>
    rw [scan_opening inside]
    exact scan_closing_error (readWall_incomplete short) before
  | @corner₁ c₁ c₂ digits rest inside symbol =>
    rw [scan_opening inside]
    exact scan_closing_error (by simp only [readWall, symbol]) before
  | @corner₂ c₁ c₂ p₁ digits rest inside corner₁ symbol =>
    rw [scan_opening inside]
    exact scan_closing_error (by simp only [readWall, corner₁, symbol]) before
  | @length c₁ c₂ p₁ p₂ digits rest inside corner₁ corner₂ numeral =>
    rw [scan_opening inside]
    exact scan_closing_error (readWall_length corner₁ corner₂ numeral) before

/-- items and nothing after them are what they place -/
theorem scan_complete (h : Spells d.alphabet items cs) (allowed : Allowed d items) :
    scan d .start cs = .ok (placementsAfter [] items) := by
  have hscan := scan_items h (allowed_iff.1 allowed) []
  rw [List.append_nil, List.nil_append] at hscan
  change scan d (scanAfter []) _ = _
  rw [hscan, scan]
  simp [scanAfter, Except.map]

/-- a flaw after items is the fault of the whole -/
theorem scan_refused {fault : Fault} {rest : List Char} (h : Spells d.alphabet items cs) (allowed : Allowed d items)
    (flaw : Flaw d items rest fault) : scan d .start (cs ++ rest) = .error fault := by
  change scan d (scanAfter []) _ = _
  rw [scan_items h (allowed_iff.1 allowed), List.nil_append, scan_flaw flaw]
  rfl

end Runs

/-! ## Every text -/

/-- the text is items in order, and nothing else or a flaw comes after them -/
def Parts (d : Dialect) (before : List Item) (cs : List Char) : Prop :=
  ∃ items xs, Spells d.alphabet items xs ∧ AllowedAfter d before items ∧
    (cs = xs ∨ ∃ rest fault, cs = xs ++ rest ∧ Flaw d (before ++ items) rest fault)

section Texts

variable {d : Dialect} {before : List Item} {cs : List Char}

theorem Parts.flaw {fault : Fault} (h : Flaw d before cs fault) : Parts d before cs :=
  ⟨[], [], .done, .nil, .inr ⟨cs, fault, rfl, by rwa [List.append_nil]⟩⟩

/-- one more item in front -/
theorem Parts.cons {i : Item} (ys : List Char) (h : Parts d (before ++ [i]) cs)
    (spelled : ∀ items xs, Spells d.alphabet items xs → Spells d.alphabet (i :: items) (ys ++ xs))
    (license : d.strict = true → i.isPosition = true → Licensed before) : Parts d before (ys ++ cs) := by
  obtain ⟨items, xs, hspells, hallowed, hrest⟩ := h
  refine ⟨i :: items, ys ++ xs, spelled items xs hspells, allowedAfter_cons.2 ⟨license, hallowed⟩, ?_⟩
  rcases hrest with rfl | ⟨rest, fault, rfl, hflaw⟩
  · exact .inl rfl
  · refine .inr ⟨rest, fault, (List.append_assoc ys xs rest).symm, ?_⟩
    rwa [List.append_assoc] at hflaw

/-- the symbols up to the next bracket -/
theorem exists_unbracketed (a : Alphabet) (cs : List Char) :
    ∃ body, Unbracketed a body ∧
      (cs = body ∨ (∃ rest, cs = body ++ a.opening :: rest) ∨ ∃ rest, cs = body ++ a.closing :: rest) := by
  induction cs with
  | nil => exact ⟨[], ⟨List.not_mem_nil, List.not_mem_nil⟩, .inl rfl⟩
  | cons c cs ih =>
    by_cases hopening : c = a.opening
    · exact ⟨[], ⟨List.not_mem_nil, List.not_mem_nil⟩, .inr (.inl ⟨cs, by rw [hopening]; rfl⟩)⟩
    · by_cases hclosing : c = a.closing
      · exact ⟨[], ⟨List.not_mem_nil, List.not_mem_nil⟩, .inr (.inr ⟨cs, by rw [hclosing]; rfl⟩)⟩
      · obtain ⟨body, ⟨hopen, hclose⟩, hcases⟩ := ih
        refine ⟨c :: body, ⟨?_, ?_⟩, ?_⟩
        · simp [hopen, Ne.symm hopening]
        · simp [hclose, Ne.symm hclosing]
        · rcases hcases with rfl | ⟨rest, rfl⟩ | ⟨rest, rfl⟩
          · exact .inl rfl
          · exact .inr (.inl ⟨rest, rfl⟩)
          · exact .inr (.inr ⟨rest, rfl⟩)

/-- a closed group is a wall or has a flaw -/
theorem parts_closed {body rest : List Char} (inside : Unbracketed d.alphabet body)
    (ih : ∀ before, Parts d before rest) :
    Parts d before (d.alphabet.opening :: body ++ d.alphabet.closing :: rest) := by
  match body, inside with
  | [], inside => exact .flaw (.incomplete inside (by simp))
  | [_], inside => exact .flaw (.incomplete inside (by simp))
  | c₁ :: c₂ :: digits, inside =>
    cases corner₁ : d.alphabet.decodePosition? c₁ with
    | none => exact .flaw (.corner₁ inside corner₁)
    | some p₁ =>
      cases corner₂ : d.alphabet.decodePosition? c₂ with
      | none => exact .flaw (.corner₂ inside corner₁ corner₂)
      | some p₂ =>
        by_cases hlength : ∃ n, Length digits n
        · obtain ⟨n, length⟩ := hlength
          have hsplit : d.alphabet.opening :: (c₁ :: c₂ :: digits) ++ d.alphabet.closing :: rest =
              (d.alphabet.opening :: (c₁ :: c₂ :: digits) ++ [d.alphabet.closing]) ++ rest := by simp
          rw [hsplit]
          refine (ih (before ++ [.wall p₁ p₂ n])).cons _ (fun items xs spelled => ?_) fun _ h => by cases h
          have hwall := Spells.wall inside corner₁ corner₂ length spelled
          simpa using hwall
        · exact .flaw (.length inside corner₁ corner₂ fun n h => hlength ⟨n, h⟩)

/-- **No third case.** -/
theorem spells_or_flaw (d : Dialect) (cs : List Char) (before : List Item) : Parts d before cs := by
  -- a group is passed as a whole, so the induction is on the length
  induction hn : cs.length using Nat.strong_induction_on generalizing cs before with
  | _ n ih =>
    cases cs with
    | nil => exact ⟨[], [], .done, .nil, .inl rfl⟩
    | cons c rest =>
      have hshort : ∀ rest' : List Char, rest'.length ≤ rest.length → ∀ before, Parts d before rest' :=
        fun rest' hle before => ih rest'.length (by rw [← hn, List.length_cons]; omega) rest' before rfl
      rcases symbol_cases d.alphabet c with ⟨dir, symbol⟩ | rfl | ⟨p, symbol⟩ | rfl | symbol
      · exact (hshort rest le_rfl (before ++ [.direction dir])).cons [c] (fun _ _ => .direction symbol)
          fun _ h => by cases h
      · exact (hshort rest le_rfl (before ++ [.bomb])).cons [d.alphabet.bomb] (fun _ _ => .bomb)
          fun _ h => by cases h
      · by_cases license : d.strict = true → Licensed before
        · exact (hshort rest le_rfl (before ++ [.position p])).cons [c] (fun _ _ => .position symbol)
            fun hstrict _ => license hstrict
        · obtain ⟨hstrict, hnot⟩ := Classical.not_imp.1 license
          exact .flaw (.unlicensed hstrict symbol hnot)
      · obtain ⟨body, inside, rfl | ⟨rest', rfl⟩ | ⟨rest', rfl⟩⟩ := exists_unbracketed d.alphabet rest
        · exact .flaw (.unclosed inside)
        · exact .flaw (.nested inside)
        · exact parts_closed inside (hshort rest' (by simp; omega))
      · exact .flaw (.stray symbol)

end Texts

/-! ## Contents -/

theorem notes_placements (items : List Item) : (placementsAfter [] items).filterMap (·.note?) = notes items := by
  have hafter : ∀ before, (placementsAfter before items).filterMap (·.note?) =
      ((items.inits.map (before ++ ·)).zip items).filterMap noteAt := by
    induction items with
    | nil => intro before; rfl
    | cons i items ih =>
      intro before
      have hinits : (i :: items).inits.map (before ++ ·) = before :: items.inits.map (before ++ [i] ++ ·) := by
        simp [Function.comp_def]
      rw [hinits, List.zip_cons_cons, List.filterMap_cons, ← ih (before ++ [i])]
      cases i <;> rfl
  simpa [notes] using hafter []

theorem walls_placements (before items : List Item) :
    (placementsAfter before items).filterMap (·.wall?) = walls items := by
  induction items generalizing before with
  | nil => rfl
  | cons i items ih =>
    rw [walls, List.filterMap_cons, ← walls, ← ih (before ++ [i])]
    cases i <;> rfl

theorem addDirective_eq (ds : Directives) (part : List Char) :
    addDirective ds part =
      if '=' ∈ part then .ok (ds.set (keyOf part) (valueOf part))
      else .error (.malformedDirective (.ofList (Text.trim part))) := by
  rw [addDirective, Text.cutAt?_eq]
  by_cases h : '=' ∈ part <;> simp [h, keyOf, valueOf]

/-- **Directives.** When every part has an `=`, each key gets the value of its last part. -/
theorem readDirectives_ok {parts : List (List Char)} (h : ∀ part ∈ parts, '=' ∈ part) (ds : Directives) :
    ∃ ds', readDirectives ds parts = .ok ds' ∧ ∀ key, ds'.get? key = (lastValue parts key).or (ds.get? key) := by
  induction parts generalizing ds with
  | nil => exact ⟨ds, rfl, fun _ => rfl⟩
  | cons part rest ih =>
    obtain ⟨ds', hread, hget⟩ :=
      ih (fun q hq => h q (List.mem_cons_of_mem part hq)) (ds.set (keyOf part) (valueOf part))
    refine ⟨ds', ?_, fun key => ?_⟩
    · rw [readDirectives, addDirective_eq, if_pos (h part List.mem_cons_self)]
      exact hread
    · rw [hget, Directives.get?_set]
      unfold lastValue
      rw [List.reverse_cons, List.find?_append]
      cases rest.reverse.find? (keyOf · = key) with
      | some last => rfl
      | none =>
        by_cases hkey : keyOf part = key
        · simp [hkey]
        · simp [hkey, Ne.symm hkey]

theorem readDirectives_error {before after : List (List Char)} {part : List Char} (h : ∀ part ∈ before, '=' ∈ part)
    (bare : '=' ∉ part) (ds : Directives) :
    readDirectives ds (before ++ part :: after) = .error (.malformedDirective (.ofList (Text.trim part))) := by
  induction before generalizing ds with
  | nil => rw [List.nil_append, readDirectives, addDirective_eq, if_neg bare]
  | cons first rest ih =>
    rw [List.cons_append, readDirectives, addDirective_eq, if_pos (h first List.mem_cons_self)]
    exact ih (fun q hq => h q (List.mem_cons_of_mem first hq)) _

theorem readDirectives_malformed {parts : List (List Char)} {ds : Directives} {fault : Fault}
    (h : readDirectives ds parts = .error fault) :
    ∃ part, fault = .malformedDirective part := by
  induction parts generalizing ds with
  | nil => cases h
  | cons part rest ih =>
    rw [readDirectives, addDirective_eq] at h
    by_cases hpart : '=' ∈ part
    · rw [if_pos hpart] at h
      exact ih h
    · rw [if_neg hpart] at h
      cases h
      exact ⟨_, rfl⟩

/-! ## Whole lines -/

section Lines

variable {d : Dialect} {text : List Char} {items : List Item} {ds : Directives} {fault : Fault}

/-- a malformed directive is the fault of the line, whatever is placed -/
theorem readLine_malformed (h : readDirectives .empty (directiveParts text) = .error fault) (d : Dialect) (line : Nat) :
    d.readLine line text = .error ⟨line, fault⟩ := by
  simp only [Dialect.readLine, readParts, pieces_eq_splitOn, h]

/-- otherwise the placing part decides -/
theorem readLine_placing (h : readDirectives .empty (directiveParts text) = .ok ds) (d : Dialect) (line : Nat) :
    d.readLine line text =
      match scan d .start (Text.unblanked (placingPart text)) with
      | .error fault => .error ⟨line, fault⟩
      | .ok placements => .ok ⟨line, ds, placements.filterMap (·.note?), placements.filterMap (·.wall?)⟩ := by
  simp only [Dialect.readLine, readParts, pieces_eq_splitOn, h]
  cases scan d .start (Text.unblanked (placingPart text)) <;> rfl

/-- a line in the grammar is read, with the contents it means -/
theorem Reads.readLine (h : Reads d text items) (line : Nat) :
    ∃ frame, d.readLine line text = .ok frame ∧ frame.line = line ∧
      (∀ key, frame.directives.get? key = lastValue (directiveParts text) key) ∧ frame.notes = notes items ∧
      frame.walls = walls items := by
  obtain ⟨ds, hdirectives, hget⟩ := readDirectives_ok h.directives .empty
  have hread := readLine_placing hdirectives d line
  rw [scan_complete h.placing h.allowed] at hread
  refine ⟨_, hread, rfl, fun key => ?_, notes_placements items, walls_placements [] items⟩
  rw [hget]
  cases lastValue (directiveParts text) key <;> rfl

/-- a line outside the grammar is refused with its first fault -/
theorem Refused.readLine (h : Refused d text fault) (line : Nat) : d.readLine line text = .error ⟨line, fault⟩ := by
  cases h with
  | directive parts earlier bare =>
    refine readLine_malformed ?_ d line
    rw [parts, readDirectives_error earlier bare]
  | placing directives placing spelled allowed flaw =>
    obtain ⟨ds, hdirectives, _⟩ := readDirectives_ok directives .empty
    rw [readLine_placing hdirectives, placing, scan_refused spelled allowed flaw]

/-- every line is in the grammar or refused -/
theorem reads_or_refused (d : Dialect) (text : List Char) :
    (∃ items, Reads d text items) ∨ ∃ fault, Refused d text fault := by
  cases hfind : (directiveParts text).find? (fun part => decide ('=' ∉ part)) with
  | none =>
    have hdirectives : ∀ part ∈ directiveParts text, '=' ∈ part := by simpa using hfind
    obtain ⟨items, xs, spelled, allowed, hall | ⟨rest, fault, hsplit, flaw⟩⟩ :=
      spells_or_flaw d (Text.unblanked (placingPart text)) []
    · exact .inl ⟨items, hdirectives, by rw [hall]; exact spelled, allowed_iff.2 allowed⟩
    · exact .inr ⟨fault, .placing hdirectives hsplit spelled (allowed_iff.2 allowed) flaw⟩
  | some part =>
    obtain ⟨bare, before, after, hparts, earlier⟩ := List.find?_eq_some_iff_append.1 hfind
    exact .inr ⟨_, .directive hparts (by simpa using earlier) (by simpa using bare)⟩

end Lines

/-- **The reader is its grammar.** A line is accepted exactly when it is in the grammar; its frame then has the given
number, for each key the value of the last part with it, and the notes and walls that the items mean. A refused line
is refused with its first fault. -/
theorem readLine_exact (d : Dialect) (line : Nat) (text : List Char) :
    ((∃ frame, d.readLine line text = .ok frame) ↔ ∃ items, Reads d text items) ∧
      (∀ frame items, d.readLine line text = .ok frame → Reads d text items →
        frame.line = line ∧ (∀ key, frame.directives.get? key = lastValue (directiveParts text) key) ∧
          frame.notes = notes items ∧ frame.walls = walls items) ∧
      ∀ e, d.readLine line text = .error e ↔ e.line = line ∧ Refused d text e.fault := by
  refine ⟨⟨?_, ?_⟩, ?_, fun e => ⟨?_, ?_⟩⟩
  · rintro ⟨frame, hread⟩
    rcases reads_or_refused d text with h | ⟨fault, h⟩
    · exact h
    · rw [h.readLine line] at hread
      cases hread
  · rintro ⟨items, h⟩
    obtain ⟨frame, hread, _⟩ := h.readLine line
    exact ⟨frame, hread⟩
  · intro frame items hread h
    obtain ⟨frame', hread', hcontents⟩ := h.readLine line
    rw [hread] at hread'
    cases hread'
    exact hcontents
  · intro hread
    rcases reads_or_refused d text with ⟨items, h⟩ | ⟨fault, h⟩
    · obtain ⟨frame, hread', _⟩ := h.readLine line
      rw [hread] at hread'
      cases hread'
    · rw [h.readLine line] at hread
      cases hread
      exact ⟨rfl, h⟩
  · rintro ⟨hline, h⟩
    rw [h.readLine line, ← hline]

/-- a cut note, a bomb and a wall, and a directive that is given twice -/
theorem readLine_mixed :
    ∃ frame, Dialect.standard.readLine 7 "8Z *X [ZX-2]; bpm = 90;bpm=120".toList = .ok frame ∧ frame.line = 7 ∧
      frame.directives.get? "bpm" = some "120" ∧ frame.notes = [.cut ⟨.red, 0, 0⟩ .up, .bomb ⟨.red, 1, 0⟩] ∧
      frame.walls = [.between ⟨.red, 0, 0⟩ ⟨.red, 1, 0⟩ (Float.ofInt (-2))] := by
  have digit : ∀ c ∈ ['2'], Text.isDigit c = true := fun c hc => by rw [List.mem_singleton.1 hc]; rfl
  have length : Length ['-', '2'] (-2) :=
    ⟨.minus (by simp) digit, by unfold leastLength; omega, by unfold mostLength; omega⟩
  have reads : Reads .standard "8Z *X [ZX-2]; bpm = 90;bpm=120".toList
      [.direction .up, .position ⟨.red, 0, 0⟩, .bomb, .position ⟨.red, 1, 0⟩,
        .wall ⟨.red, 0, 0⟩ ⟨.red, 1, 0⟩ (-2)] := by
    refine ⟨by decide, ?_, fun hstrict => by cases hstrict⟩
    have hplacing : Text.unblanked (placingPart "8Z *X [ZX-2]; bpm = 90;bpm=120".toList) = "8Z*X[ZX-2]".toList := by
      decide
    rw [hplacing]
    exact .direction (by decide) (.position (by decide) (.bomb (.position (by decide)
      (.wall ⟨by decide, by decide⟩ (by decide) (by decide) length .done))))
  obtain ⟨accepted, contents, _⟩ := readLine_exact .standard 7 "8Z *X [ZX-2]; bpm = 90;bpm=120".toList
  obtain ⟨frame, hread⟩ := accepted.2 ⟨_, reads⟩
  obtain ⟨hline, hdirectives, hnotes, hwalls⟩ := contents frame _ hread reads
  exact ⟨frame, hread, hline, (hdirectives "bpm").trans (by decide), hnotes, hwalls⟩

end RhythmChart.Line

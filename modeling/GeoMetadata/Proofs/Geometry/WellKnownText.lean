import GeoMetadata.Geometry.WellKnownText
import GeoMetadata.Proofs.Outcome

/-!
# Where the vertices of a shape are written

The numbers of well-known text are the coordinates of its positions, and of nothing else.  What a
reader gives is told by the numbers among the tokens that it uses up (`Uses`), with one rule for
each way to build a reader.  A position takes two numbers for its coordinates and up to two more
that it passes over (`uses_position`), and a list takes what its items take, one after the other
(`uses_list`).  So every kind of shape, however deeply nested, has the positions that are written in
the text as its vertices, in the order of the text and without any left out
(`spells_vertices_of_read`).
-/

namespace GeoMetadata.WellKnownText

open Number (Binary64)

/-! ## Numbers and positions -/

/-- The number of a token that is one. -/
def Token.number? : Token → Option Binary64
  | .number x => some x
  | _ => none

/-- The numbers among some tokens, in order. -/
def numbersOf (tokens : List Token) : List Binary64 := tokens.filterMap Token.number?

/-- The numbers are those of the positions, in order: for each its two coordinates, and up to two
more numbers after them. -/
inductive Spells : List Position → List Binary64 → Prop
  | nil : Spells [] []
  | cons {p : Position} {rest : List Position} {further numbers : List Binary64} :
    further.length ≤ 2 → Spells rest numbers →
      Spells (p :: rest) (p.x :: p.y :: (further ++ numbers))

theorem Spells.append {first second : List Position} {numbers others : List Binary64}
    (h : Spells first numbers) (h' : Spells second others) :
    Spells (first ++ second) (numbers ++ others) := by
  induction h with
  | nil => exact h'
  | cons hfurther _ ih =>
      rw [List.cons_append, List.cons_append, List.cons_append, List.append_assoc]
      exact .cons hfurther ih

/-- Positions of several things that are spelled one after the other. -/
theorem spells_flatMap {α : Type} {positionsOf : α → List Position} {items : List α}
    {pieces : List (List Binary64)}
    (h : List.Forall₂ (fun item piece => Spells (positionsOf item) piece) items pieces) :
    Spells (items.flatMap positionsOf) pieces.flatten := by
  induction h with
  | nil => exact .nil
  | cons hitem _ ih =>
      rw [List.flatMap_cons, List.flatten_cons]
      exact hitem.append ih

/-! ## What a reader uses up -/

variable {α β : Type} {good : α → List Binary64 → Prop} {better : β → List Binary64 → Prop}

/-- If the reader succeeds, it has used up tokens from the front, and what it gives goes with the
numbers among them. -/
def Uses (reader : Reader α) (good : α → List Binary64 → Prop) : Prop :=
  ∀ state a reached, reader.run state = .ok (a, reached) →
    ∃ used, state.tokens = used ++ reached.tokens ∧ good a (numbersOf used)

theorem uses_pure {a : α} (h : good a []) : Uses (pure a) good := by
  intro state b reached hrun
  obtain ⟨rfl, rfl⟩ := Prod.mk.inj (Except.ok.inj hrun)
  exact ⟨[], rfl, h⟩

theorem uses_malformed : Uses (malformed : Reader α) good := by
  intro state a reached hrun
  cases hrun

theorem Uses.bind {reader : Reader α} {next : α → Reader β} (h : Uses reader good)
    (hnext : ∀ a numbers, good a numbers →
      Uses (next a) fun b others => better b (numbers ++ others)) :
    Uses (reader >>= next) better := by
  intro state b reached hrun
  rw [StateT.run_bind, bind_eq_ok_iff] at hrun
  obtain ⟨⟨a, between⟩, hreader, hrun⟩ := hrun
  obtain ⟨used, hused, hgood⟩ := h state a between hreader
  obtain ⟨later, hlater, hbetter⟩ := hnext a _ hgood between b reached hrun
  refine ⟨used ++ later, ?_, ?_⟩
  · rw [hused, hlater, List.append_assoc]
  · rw [numbersOf, List.filterMap_append]
    exact hbetter

theorem Uses.imp {reader : Reader α} {weaker : α → List Binary64 → Prop} (h : Uses reader good)
    (hweaker : ∀ a numbers, good a numbers → weaker a numbers) : Uses reader weaker := by
  intro state a reached hrun
  obtain ⟨used, hused, hgood⟩ := h state a reached hrun
  exact ⟨used, hused, hweaker _ _ hgood⟩

/-- A reader that is followed by one that uses up nothing more. -/
theorem Uses.map {reader : Reader α} (h : Uses reader good) {f : α → β}
    (hf : ∀ a numbers, good a numbers → better (f a) numbers) :
    Uses (do let a ← reader; pure (f a)) better :=
  h.bind fun a numbers hgood => uses_pure (by rw [List.append_nil]; exact hf a numbers hgood)

/-- A step that uses up no numbers comes before others unseen. -/
theorem Uses.skip {reader : Reader α} {next : α → Reader β}
    (h : Uses reader fun _ numbers => numbers = [])
    (hnext : ∀ a, Uses (next a) better) : Uses (reader >>= next) better :=
  h.bind fun a numbers hnone => by
    subst hnone
    exact hnext a

theorem uses_get : Uses (get : Reader State) fun _ numbers => numbers = [] := by
  intro state a reached hrun
  obtain ⟨rfl, rfl⟩ := Prod.mk.inj (Except.ok.inj hrun)
  exact ⟨[], rfl, rfl⟩

theorem uses_setDimensions (change : Dimensions → Dimensions) :
    Uses (setDimensions change) fun _ numbers => numbers = [] := by
  intro state a reached hrun
  obtain ⟨rfl, rfl⟩ := Prod.mk.inj (Except.ok.inj hrun)
  exact ⟨[], rfl, rfl⟩

theorem uses_peek? : Uses peek? fun _ numbers => numbers = [] := by
  intro state a reached hrun
  obtain ⟨rfl, rfl⟩ := Prod.mk.inj (Except.ok.inj hrun)
  exact ⟨[], rfl, rfl⟩

theorem uses_token : Uses token fun t numbers => numbers = t.number?.toList := by
  rintro ⟨tokens, dimensions⟩ t reached hrun
  cases tokens with
  | nil => cases hrun
  | cons first rest =>
      obtain ⟨rfl, rfl⟩ := Prod.mk.inj (Except.ok.inj hrun)
      refine ⟨[first], rfl, ?_⟩
      cases first <;> rfl

theorem uses_number : Uses number fun x numbers => numbers = [x] := by
  refine uses_token.bind fun t numbers ht => ?_
  subst ht
  cases t with
  | number x => exact uses_pure rfl
  | opener | closer | comma | word => exact uses_malformed

theorem uses_isNumberNext : Uses isNumberNext fun _ numbers => numbers = [] := by
  refine uses_peek?.skip fun next => ?_
  split
  · exact uses_pure rfl
  · exact uses_pure rfl

/-! ## Positions -/

theorem uses_ite_setDimensions {c : Bool} {change : Dimensions → Dimensions} {next : Reader β}
    (h : Uses next better) :
    Uses (if c = true then do setDimensions change; next else next) better := by
  split
  · exact (uses_setDimensions change).skip fun _ => h
  · exact h

/-- A number that is there or not is one more number at most. -/
theorem uses_ite_number {c : Bool} {p : Position} {n : Nat} {next : Reader Position}
    (h : Uses next fun q numbers => q = p ∧ numbers.length ≤ n) :
    Uses (if c = true then do let _ ← number; next else next) fun q numbers =>
      q = p ∧ numbers.length ≤ n + 1 := by
  split
  · refine uses_number.bind fun x _ hx => h.imp fun q numbers hq => ⟨hq.1, ?_⟩
    subst hx
    exact Nat.succ_le_succ hq.2
  · exact h.imp fun q numbers hq => ⟨hq.1, Nat.le_succ_of_le hq.2⟩

/-- A position uses up its two coordinates and up to two more numbers. -/
theorem uses_position : Uses position fun p numbers => Spells [p] numbers := by
  unfold position
  dsimp only
  refine uses_number.bind fun x _ hx => uses_number.bind fun y _ hy => ?_
  subst hx hy
  have hrest {next : Reader Position}
      (h : Uses next fun p others => p = ⟨x, y⟩ ∧ others.length ≤ 2) :
      Uses next fun p others => Spells [p] ([x] ++ ([y] ++ others)) := by
    refine h.imp fun p others hp => ?_
    obtain ⟨rfl, hlength⟩ := hp
    have hspells := Spells.cons (p := ⟨x, y⟩) hlength .nil
    rwa [List.append_nil] at hspells
  refine hrest ?_
  refine uses_get.skip fun _ => uses_isNumberNext.skip fun _ => uses_ite_setDimensions ?_
  refine uses_get.skip fun _ => uses_ite_number ?_
  refine uses_get.skip fun _ => uses_get.skip fun _ => uses_isNumberNext.skip fun _ =>
    uses_ite_setDimensions ?_
  refine uses_get.skip fun _ => uses_ite_number ?_
  exact (uses_setDimensions _).skip fun _ => uses_pure ⟨rfl, Nat.le_refl 0⟩

/-! ## Lists -/

theorem uses_opening : Uses opening fun _ numbers => numbers = [] := by
  have hword (word : List Char) : Uses
      (if word = emptyWord then pure false else malformed : Reader Bool) fun _ numbers =>
        numbers = [] := by
    split
    · exact uses_pure rfl
    · exact uses_malformed
  unfold opening
  dsimp only
  refine uses_token.bind fun first _ hfirst => ?_
  subst hfirst
  cases first with
  | word word =>
      dsimp only
      split
      · refine (uses_setDimensions _).skip fun _ => uses_token.bind fun second _ hsecond => ?_
        subst hsecond
        cases second with
        | opener => exact uses_pure rfl
        | word word => exact hword word
        | closer | comma | number => exact uses_malformed
      · exact hword word
  | opener => exact uses_pure rfl
  | closer | comma | number => exact uses_malformed

/-- The numbers are those of the items, of one after those of the other. -/
def InPieces (good : α → List Binary64 → Prop) (found : List α) (numbers : List Binary64) : Prop :=
  ∃ pieces, List.Forall₂ good found pieces ∧ numbers = pieces.flatten

theorem uses_items {item : Reader α} (h : Uses item good) (fuel : Nat) :
    Uses (items item fuel) (InPieces good) := by
  induction fuel with
  | zero => exact uses_malformed
  | succ fuel ih =>
      rw [items]
      refine h.bind fun first piece hfirst => uses_token.bind fun t _ ht => ?_
      subst ht
      cases t with
      | comma =>
          refine ih.map fun found numbers hrest => ?_
          obtain ⟨pieces, hpieces, rfl⟩ := hrest
          exact ⟨piece :: pieces, .cons hfirst hpieces, rfl⟩
      | closer =>
          refine uses_pure ⟨[piece], .cons hfirst .nil, ?_⟩
          rfl
      | opener | number | word => exact uses_malformed

theorem uses_itemsToEnd {item : Reader α} (h : Uses item good) :
    Uses (itemsToEnd item) (InPieces good) :=
  uses_get.skip fun _ => uses_items h _

theorem uses_list {item : Reader α} (h : Uses item good) : Uses (list item) (InPieces good) := by
  refine uses_opening.skip fun isThere => ?_
  split
  · exact uses_itemsToEnd h
  · exact uses_pure ⟨[], .nil, rfl⟩

theorem spells_of_forall₂ {ps : List Position} {pieces : List (List Binary64)}
    (h : List.Forall₂ (fun p piece => Spells [p] piece) ps pieces) : Spells ps pieces.flatten := by
  have hall := spells_flatMap h
  rwa [List.flatMap_singleton'] at hall

theorem uses_positions : Uses positions Spells := by
  refine (uses_list uses_position).imp fun ps numbers hps => ?_
  obtain ⟨pieces, hpieces, rfl⟩ := hps
  exact spells_of_forall₂ hpieces

/-! ## Shapes -/

theorem allVertices_eq_flatMap (shapes : List Shape) :
    Shape.allVertices shapes = shapes.flatMap Shape.vertices := by
  induction shapes with
  | nil => rfl
  | cons shape rest ih => rw [Shape.allVertices, ih, List.flatMap_cons]

/-- The numbers are those of the vertices of the shape. -/
def Outlines (shape : Shape) (numbers : List Binary64) : Prop := Spells shape.vertices numbers

theorem outlines_collection {shapes : List Shape} {numbers : List Binary64}
    (h : InPieces Outlines shapes numbers) : Outlines (.collection shapes) numbers := by
  obtain ⟨pieces, hpieces, rfl⟩ := h
  rw [Outlines, Shape.vertices, allVertices_eq_flatMap]
  exact spells_flatMap hpieces

theorem uses_pointBody : Uses pointBody Outlines := by
  refine uses_positions.bind fun ps numbers hps => ?_
  rcases ps with _ | ⟨p, _ | ⟨q, rest⟩⟩
  · refine uses_pure ?_
    rw [List.append_nil]
    exact hps
  · refine uses_pure ?_
    rw [List.append_nil]
    exact hps
  · exact uses_malformed

theorem uses_lineVertices : Uses lineVertices Spells := by
  refine uses_positions.bind fun ps numbers hps => ?_
  split
  · exact uses_malformed
  · refine uses_pure ?_
    rwa [List.append_nil]

theorem uses_lineShape : Uses (Shape.line <$> lineVertices) Outlines := by
  rw [map_eq_pure_bind]
  exact uses_lineVertices.map fun _ _ h => h

theorem uses_ring : Uses ring Spells := by
  refine uses_positions.bind fun ps numbers hps => ?_
  split
  · refine uses_pure ?_
    rwa [List.append_nil]
  · exact uses_malformed

theorem uses_polygonBody : Uses polygonBody Outlines := by
  refine (uses_list uses_ring).bind fun rings numbers hrings => ?_
  have hpolygon : Uses (pure (.polygon rings) : Reader Shape) fun shape others =>
      Outlines shape (numbers ++ others) := by
    obtain ⟨pieces, hpieces, rfl⟩ := hrings
    refine uses_pure ?_
    rw [List.append_nil, Outlines, Shape.vertices, ← List.flatMap_id]
    exact spells_flatMap hpieces
  split
  · split
    · exact hpolygon
    · exact uses_malformed
  · exact hpolygon

theorem uses_pointsBody : Uses pointsBody Outlines := by
  have hpoints : Uses (do let shapes ← itemsToEnd pointBody; pure (.collection shapes) : Reader Shape)
      Outlines := (uses_itemsToEnd uses_pointBody).map fun _ _ => outlines_collection
  refine uses_opening.skip fun isThere => ?_
  split
  · refine uses_peek?.skip fun next => ?_
    split
    · refine (uses_itemsToEnd uses_position).map fun ps numbers hps => ?_
      obtain ⟨pieces, hpieces, rfl⟩ := hps
      exact outlines_collection ⟨pieces, List.forall₂_map_left_iff.mpr hpieces, rfl⟩
    · exact hpoints
    · split
      · exact hpoints
      · exact uses_malformed
    · exact uses_malformed
  · exact uses_pure .nil

/-- The numbers are those of the vertices of what was found, unless it is curved. -/
def Found.IsOutlined (found : Found) (numbers : List Binary64) : Prop :=
  ∀ shape, found = .shape shape → Outlines shape numbers

theorem isOutlined_shape {shape : Shape} {numbers : List Binary64} (h : Outlines shape numbers) :
    (Found.shape shape).IsOutlined numbers := fun _ hother => Found.shape.inj hother ▸ h

theorem isOutlined_curved (kind : Kind) (numbers : List Binary64) :
    (Found.curved kind).IsOutlined numbers := fun _ hother => by cases hother

/-- Parts of which none is curved. -/
theorem forall₂_outlines {parts : List Found} {pieces : List (List Binary64)} {shapes : List Shape}
    (h : List.Forall₂ Found.IsOutlined parts pieces)
    (hshapes : parts.mapM Found.shape? = some shapes) : List.Forall₂ Outlines shapes pieces := by
  induction h generalizing shapes with
  | nil =>
      obtain rfl := Option.some.inj hshapes
      exact .nil
  | @cons part piece _ _ hpart _ ih =>
      rw [List.mapM_cons] at hshapes
      obtain ⟨shape, hshape, hshapes⟩ := Option.bind_eq_some_iff.mp hshapes
      obtain ⟨rest, hrest, hshapes⟩ := Option.bind_eq_some_iff.mp hshapes
      obtain rfl := Option.some.inj hshapes
      cases part with
      | shape found =>
          obtain rfl := Option.some.inj hshape
          exact .cons (hpart _ rfl) (ih hrest)
      | curved kind => cases hshape

theorem uses_part {plain named : Reader Found} (hplain : Uses plain Found.IsOutlined)
    (hnamed : Uses named Found.IsOutlined) (isRight : Found → Bool) :
    Uses (part plain named isRight) Found.IsOutlined := by
  refine uses_peek?.skip fun next => ?_
  split
  · exact hplain
  · split
    · exact hplain
    · refine hnamed.bind fun found numbers hfound => ?_
      split
      · refine uses_pure ?_
        rwa [List.append_nil]
      · exact uses_malformed
  · exact uses_malformed

/-- What is found is given once the dimensions are those of the outer shape again. -/
theorem uses_restored {found : Found} {numbers : List Binary64} (h : found.IsOutlined numbers)
    (restored : Dimensions → Dimensions) :
    Uses (do let found ← pure found; setDimensions restored; pure found : Reader Found)
      fun found others => found.IsOutlined (numbers ++ others) := by
  rw [pure_bind]
  refine (uses_setDimensions restored).skip fun _ => uses_pure ?_
  rwa [List.append_nil]

theorem Uses.restored {reader : Reader α} (h : Uses reader good) {f : α → Found}
    (hf : ∀ a numbers, good a numbers → (f a).IsOutlined numbers)
    (restored : Dimensions → Dimensions) :
    Uses (do let a ← reader; let found ← pure (f a); setDimensions restored; pure found)
      Found.IsOutlined :=
  h.bind fun a numbers hgood => uses_restored (hf a numbers hgood) restored

theorem uses_shape (fuel : Nat) : Uses (shape fuel) Found.IsOutlined := by
  induction fuel with
  | zero => exact uses_malformed
  | succ fuel ih =>
      unfold shape
      dsimp only
      refine uses_token.bind fun first _ hfirst => ?_
      subst hfirst
      cases first with
      | word word =>
          change Uses _ Found.IsOutlined
          dsimp only
          split
          · rename_i kind dimensions _
            have houtlined (vertices : List Position) (numbers : List Binary64)
                (h : Spells vertices numbers) : (Found.shape (.line vertices)).IsOutlined numbers :=
              isOutlined_shape h
            have hcollection (shapes : List Shape) (numbers : List Binary64)
                (h : InPieces Outlines shapes numbers) :
                (Found.shape (.collection shapes)).IsOutlined numbers :=
              isOutlined_shape (outlines_collection h)
            have hline :
                Uses (do let vertices ← lineVertices; pure (.shape (.line vertices)) : Reader Found)
                  Found.IsOutlined := uses_lineVertices.map houtlined
            have hpolygon : Uses (do let found ← polygonBody; pure (.shape found) : Reader Found)
                Found.IsOutlined := uses_polygonBody.map fun _ _ h => isOutlined_shape h
            have hcurves := uses_list (uses_part hline ih Found.isCurve)
            have hsurfaces := uses_list (uses_part hpolygon ih Found.isSurface)
            refine uses_get.skip fun state => (uses_setDimensions _).skip fun _ => ?_
            cases kind with
            | point => exact uses_pointBody.restored (fun _ _ h => isOutlined_shape h) _
            | line => exact uses_lineVertices.restored houtlined _
            | ring => exact uses_ring.restored houtlined _
            | polygon => exact uses_polygonBody.restored (fun _ _ h => isOutlined_shape h) _
            | points => exact uses_pointsBody.restored (fun _ _ h => isOutlined_shape h) _
            | lines => exact (uses_list uses_lineShape).restored hcollection _
            | polygons => exact (uses_list uses_polygonBody).restored hcollection _
            | collection =>
                refine (uses_list ih).bind fun parts numbers hparts => ?_
                obtain ⟨pieces, hpieces, rfl⟩ := hparts
                split
                · rename_i shapes hshapes
                  have houtlines := forall₂_outlines hpieces hshapes
                  exact uses_restored (hcollection shapes _ ⟨pieces, houtlines, rfl⟩) _
                · exact uses_restored (isOutlined_curved _ _) _
            | arc =>
                refine uses_positions.bind fun vertices numbers _ => ?_
                split
                · exact (@uses_malformed _ fun _ _ => False).bind fun _ _ h => h.elim
                · exact uses_restored (isOutlined_curved _ _) _
            | compoundCurve => exact hcurves.restored (fun _ _ _ => isOutlined_curved _ _) _
            | curvePolygon => exact hcurves.restored (fun _ _ _ => isOutlined_curved _ _) _
            | curves => exact hcurves.restored (fun _ _ _ => isOutlined_curved _ _) _
            | surfaces => exact hsurfaces.restored (fun _ _ _ => isOutlined_curved _ _) _
          · exact uses_malformed
      | opener | closer | comma | number => exact uses_malformed

/-- The numbers of a text that is read are those of the vertices of its shape, in order. -/
theorem spells_vertices_of_read {text : String} {found : Shape} (h : read text = .ok found) :
    Spells found.vertices (numbersOf (tokens text)) := by
  unfold read at h
  dsimp only at h
  split at h
  · cases h
  · rename_i given state hrun
    split at h
    · cases h
    · rename_i hall
      obtain ⟨used, hused, houtlined⟩ := uses_shape _ _ _ _ hrun
      rw [not_not] at hall
      rw [hall, List.append_nil] at hused
      cases given with
      | shape shape =>
          obtain rfl := Except.ok.inj h
          have hvertices := houtlined _ rfl
          rwa [← hused] at hvertices
      | curved kind => cases h

end GeoMetadata.WellKnownText

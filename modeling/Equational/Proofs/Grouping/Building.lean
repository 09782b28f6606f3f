import Equational.Proofs.Grouping.Tree

/-!
# Building groupings

Parts are grouped from left to right.  What has been read so far is a stack of open nodes, each with
its left operand, and the operand in front of the next part unless an operand has to come first.
An arriving operator closes the open nodes that it does not belong to.

The result is the admissible grouping of the parts, and there is none if it fails: `group?` gives a
grouping of its parts exactly if that grouping is admissible.
-/

namespace Equational

/-! ## Open nodes -/

/-- A node that waits for its right operand. -/
inductive Frame where
  | leading (operator : Leading)
  | joining (left : Grouping) (operator : Joining)

namespace Frame

def pending : Frame → Pending
  | leading operator => operator.pending
  | joining _ operator => operator.pending

def rank (frame : Frame) : Rank := frame.pending.rank

def parts : Frame → List Part
  | leading operator => [.leading operator]
  | joining left operator => left.parts ++ [.joining operator]

def close : Frame → Grouping → Grouping
  | leading operator, operand => .leading operator operand
  | joining left operator, right => .joining operator left right

@[simp] theorem parts_close (frame : Frame) (focus : Grouping) :
    (frame.close focus).parts = frame.parts ++ focus.parts := by
  cases frame <;> simp [close, parts, Grouping.parts]

@[simp] theorem rightSpine_close (frame : Frame) (focus : Grouping) :
    (frame.close focus).rightSpine = frame.rank :: focus.rightSpine := by
  cases frame <;> rfl

end Frame

def settle (arriving : Rank) : List Frame → Grouping → Option (List Frame × Grouping)
  | [], focus => some ([], focus)
  | frame :: rest, focus =>
    match frame.rank.against arriving with
    | .apply => settle arriving rest (frame.close focus)
    | .keep => some (frame :: rest, focus)
    | .clash => none

def closeAll : List Frame → Grouping → Grouping
  | [], focus => focus
  | frame :: rest, focus => closeAll rest (frame.close focus)

/-- Open nodes, the innermost first, and the operand in front of the next part if there is one. -/
inductive Unfinished where
  | expecting (frames : List Frame)
  | holding (frames : List Frame) (focus : Grouping)

namespace Unfinished

def take : Unfinished → Part → Option Unfinished
  | expecting frames, .operand value => some (holding frames (.leaf value))
  | expecting frames, .leading operator => some (expecting (.leading operator :: frames))
  | holding frames focus, .joining operator => do
    let (frames, left) ← settle operator.rank frames focus
    return expecting (.joining left operator :: frames)
  | holding frames focus, .trailing operator => do
    let (frames, operand) ← settle operator.rank frames focus
    return holding frames (.trailing operator operand)
  | _, _ => none

def whole? : Unfinished → Option Grouping
  | expecting _ => none
  | holding frames focus => some (closeAll frames focus)

end Unfinished

def group? (parts : List Part) : Option Grouping :=
  (parts.foldlM Unfinished.take (.expecting [])).bind Unfinished.whole?

/-! ## Spines of open nodes -/

/-- The innermost open node is not closed by any operator of the spine. -/
def Fits (frames : List Frame) (spine : List Rank) : Prop :=
  ∀ frame ∈ frames.head?, ∀ inner ∈ spine, frame.rank.Keeps inner

@[simp] theorem fits_nil (spine : List Rank) : Fits [] spine := by
  simp [Fits]

@[simp] theorem fits_cons (frame : Frame) (rest : List Frame) (spine : List Rank) :
    Fits (frame :: rest) spine ↔ ∀ inner ∈ spine, frame.rank.Keeps inner := by
  simp [Fits]

theorem Fits.head {frames : List Frame} {arriving : Rank} {spine : List Rank}
    (h : Fits frames (arriving :: spine)) : Fits frames [arriving] := by
  intro frame hframe inner hinner
  exact h frame hframe inner (List.mem_cons.mpr (.inl (List.mem_singleton.mp hinner)))

theorem Fits.tail {frames : List Frame} {arriving : Rank} {spine : List Rank}
    (h : Fits frames (arriving :: spine)) : Fits frames spine := by
  intro frame hframe inner hinner
  exact h frame hframe inner (List.mem_cons_of_mem _ hinner)

theorem Fits.cons {frames : List Frame} {arriving : Rank} {spine : List Rank}
    (hhead : Fits frames [arriving]) (htail : Fits frames spine) :
    Fits frames (arriving :: spine) := by
  intro frame hframe inner hinner
  rcases List.mem_cons.mp hinner with rfl | hinner
  · exact hhead frame hframe inner (List.mem_singleton.mpr rfl)
  · exact htail frame hframe inner hinner

theorem settle_of_fits {arriving : Rank} {frames : List Frame} (h : Fits frames [arriving])
    (focus : Grouping) : settle arriving frames focus = some (frames, focus) := by
  cases frames with
  | nil => rfl
  | cons frame rest =>
    have hkeep : frame.rank.against arriving = .keep := by
      rw [Rank.against_eq_keep_iff]
      simpa using h
    simp [settle, hkeep]

/-! ## An admissible grouping is built from its parts

The parts of a grouping are read behind any open nodes that leave its left spine alone.  Behind its
last part the nodes of its right spine are still open. -/

def Grouping.opened : Grouping → List Frame → List Frame × Grouping
  | .leaf value, frames => (frames, .leaf value)
  | .trailing operator operand, frames => (frames, .trailing operator operand)
  | .leading operator operand, frames => operand.opened (.leading operator :: frames)
  | .joining operator left right, frames => right.opened (.joining left operator :: frames)

theorem settle_opened {arriving : Rank} (g : Grouping) (frames : List Frame)
    (h : ∀ inner ∈ g.rightSpine, inner.Pops arriving) :
    settle arriving (g.opened frames).1 (g.opened frames).2 = settle arriving frames g := by
  induction g generalizing frames with
  | leaf value => rfl
  | trailing operator operand _ => rfl
  | leading operator operand ih =>
    simp only [Grouping.rightSpine, List.mem_cons, forall_eq_or_imp] at h
    have happly : (Frame.leading operator).rank.against arriving = .apply :=
      (Rank.against_eq_apply_iff _ _).mpr h.1
    rw [Grouping.opened, ih _ h.2]
    simp [settle, happly, Frame.close]
  | joining operator left right _ ih =>
    simp only [Grouping.rightSpine, List.mem_cons, forall_eq_or_imp] at h
    have happly : (Frame.joining left operator).rank.against arriving = .apply :=
      (Rank.against_eq_apply_iff _ _).mpr h.1
    rw [Grouping.opened, ih _ h.2]
    simp [settle, happly, Frame.close]

private theorem closeAll_opened (g : Grouping) (frames : List Frame) :
    closeAll (g.opened frames).1 (g.opened frames).2 = closeAll frames g := by
  induction g generalizing frames with
  | leaf value => rfl
  | trailing operator operand _ => rfl
  | leading operator operand ih => exact ih _
  | joining operator left right _ ih => exact ih _

private theorem take_parts {g : Grouping} (hg : g.Admissible) {frames : List Frame}
    (hfits : Fits frames g.leftSpine) :
    g.parts.foldlM Unfinished.take (.expecting frames) =
      some (.holding (g.opened frames).1 (g.opened frames).2) := by
  -- An operator in the middle pops what its left operand has opened, and keeps the frames below.
  induction g generalizing frames with
  | leaf value => rfl
  | leading operator operand ih =>
    have hinner := ih hg.1 ((fits_cons (.leading operator) frames _).mpr hg.2)
    simpa [Grouping.parts, Unfinished.take, Grouping.opened] using hinner
  | joining operator left right ihLeft ihRight =>
    obtain ⟨hleft, hright, hpops, hkeeps⟩ := hg
    have hbefore := ihLeft hleft hfits.tail
    have hsettled : settle operator.rank (left.opened frames).1 (left.opened frames).2 =
        some (frames, left) := by
      rw [settle_opened left frames hpops]
      exact settle_of_fits hfits.head left
    have hbehind := ihRight hright ((fits_cons (.joining left operator) frames _).mpr hkeeps)
    simp [Grouping.parts, hbefore, Unfinished.take, hsettled, hbehind, Grouping.opened]
  | trailing operator operand ih =>
    have hbefore := ih hg.1 hfits.tail
    have hsettled : settle operator.rank (operand.opened frames).1 (operand.opened frames).2 =
        some (frames, operand) := by
      rw [settle_opened operand frames hg.2]
      exact settle_of_fits hfits.head operand
    simp [Grouping.parts, hbefore, Unfinished.take, hsettled, Grouping.opened]

theorem group?_parts {g : Grouping} (hg : g.Admissible) : group? g.parts = some g := by
  rw [group?, take_parts hg (fits_nil _)]
  simp [Unfinished.whole?, closeAll_opened, closeAll]

/-! ## What is built is admissible -/

def Sound : List Frame → Prop
  | [] => True
  | .leading _ :: rest => Sound rest
  | .joining left operator :: rest =>
    Sound rest ∧ left.Admissible ∧ (∀ inner ∈ left.rightSpine, inner.Pops operator.rank) ∧
      Fits rest (operator.rank :: left.leftSpine)

structure Held (frames : List Frame) (focus : Grouping) : Prop where
  sound : Sound frames
  admissible : focus.Admissible
  fits : Fits frames focus.leftSpine

def framesParts : List Frame → List Part
  | [] => []
  | frame :: rest => framesParts rest ++ frame.parts

namespace Held

theorem close {frame : Frame} {rest : List Frame} {focus : Grouping}
    (h : Held (frame :: rest) focus) : Held rest (frame.close focus) := by
  have hkeeps := (fits_cons frame rest _).mp h.fits
  cases frame with
  | leading operator =>
    exact ⟨h.sound, ⟨h.admissible, hkeeps⟩, by simp [Frame.close, Grouping.leftSpine, Fits]⟩
  | joining left operator =>
    obtain ⟨hrest, hleft, hpops, hfits⟩ := h.sound
    exact ⟨hrest, ⟨hleft, h.admissible, hpops, hkeeps⟩, hfits⟩

theorem closeAll {frames : List Frame} {focus : Grouping} (h : Held frames focus) :
    (closeAll frames focus).Admissible ∧
      (Equational.closeAll frames focus).parts = framesParts frames ++ focus.parts := by
  induction frames generalizing focus with
  | nil => exact ⟨h.admissible, rfl⟩
  | cons frame rest ih =>
    obtain ⟨hadmissible, hparts⟩ := ih h.close
    refine ⟨hadmissible, ?_⟩
    simpa [Equational.closeAll, framesParts] using hparts

theorem settle {arriving : Rank} {frames settled : List Frame} {focus operand : Grouping}
    (h : Held frames focus) (hpops : ∀ inner ∈ focus.rightSpine, inner.Pops arriving)
    (hsettle : settle arriving frames focus = some (settled, operand)) :
    Held settled operand ∧ Fits settled [arriving] ∧
      (∀ inner ∈ operand.rightSpine, inner.Pops arriving) ∧
      framesParts settled ++ operand.parts = framesParts frames ++ focus.parts := by
  -- A frame that pops joins the right spine of the focus; one that keeps ends the popping.
  induction frames generalizing focus with
  | nil =>
    cases hsettle
    exact ⟨h, fits_nil _, hpops, rfl⟩
  | cons frame rest ih =>
    simp only [Equational.settle] at hsettle
    cases hverdict : frame.rank.against arriving with
    | apply =>
      simp only [hverdict] at hsettle
      have hpops' : ∀ inner ∈ (frame.close focus).rightSpine, inner.Pops arriving := by
        have htop := (Rank.against_eq_apply_iff _ _).mp hverdict
        simpa using ⟨htop, hpops⟩
      obtain ⟨hheld, hfits, hright, hparts⟩ := ih h.close hpops' hsettle
      refine ⟨hheld, hfits, hright, ?_⟩
      simpa [framesParts] using hparts
    | keep =>
      simp only [hverdict] at hsettle
      cases hsettle
      refine ⟨h, ?_, hpops, rfl⟩
      simpa using (Rank.against_eq_keep_iff _ _).mp hverdict
    | clash =>
      simp [hverdict] at hsettle

end Held

namespace Unfinished

/-- An operand is in focus with its right spine complete. -/
def Valid : Unfinished → Prop
  | expecting frames => Sound frames
  | holding frames focus => Held frames focus ∧ focus.rightSpine = []

def parts : Unfinished → List Part
  | expecting frames => framesParts frames
  | holding frames focus => framesParts frames ++ focus.parts

theorem Valid.take {held next : Unfinished} {part : Part} (h : held.Valid)
    (htake : held.take part = some next) :
    next.Valid ∧ next.parts = held.parts ++ [part] := by
  cases held with
  | expecting frames =>
    cases part with
    | operand value =>
      cases htake
      refine ⟨⟨⟨h, trivial, ?_⟩, rfl⟩, rfl⟩
      simp [Grouping.leftSpine, Fits]
    | leading operator =>
      cases htake
      exact ⟨h, rfl⟩
    | joining operator => cases htake
    | trailing operator => cases htake
  | holding frames focus =>
    obtain ⟨hheld, hspine⟩ := h
    cases part with
    | operand value => cases htake
    | leading operator => cases htake
    | joining operator =>
      cases hsettle : settle operator.rank frames focus with
      | none => simp [Unfinished.take, hsettle] at htake
      | some settled =>
        obtain ⟨settled, left⟩ := settled
        obtain ⟨hleft, hfits, hpops, hparts⟩ := hheld.settle (by simp [hspine]) hsettle
        simp only [Unfinished.take, hsettle] at htake
        cases htake
        refine ⟨⟨hleft.sound, hleft.admissible, hpops, ?_⟩, ?_⟩
        · exact hfits.cons hleft.fits
        · simp [parts, framesParts, Frame.parts, ← hparts]
    | trailing operator =>
      cases hsettle : settle operator.rank frames focus with
      | none => simp [Unfinished.take, hsettle] at htake
      | some settled =>
        obtain ⟨settled, operand⟩ := settled
        obtain ⟨hoperand, hfits, hpops, hparts⟩ := hheld.settle (by simp [hspine]) hsettle
        simp only [Unfinished.take, hsettle] at htake
        cases htake
        refine ⟨⟨⟨hoperand.sound, ⟨hoperand.admissible, hpops⟩, ?_⟩, rfl⟩, ?_⟩
        · exact hfits.cons hoperand.fits
        · simp [parts, Grouping.parts, ← hparts]

theorem Valid.takeAll {held final : Unfinished} {read : List Part} (h : held.Valid)
    (htake : read.foldlM Unfinished.take held = some final) :
    final.Valid ∧ final.parts = held.parts ++ read := by
  induction read generalizing held with
  | nil =>
    cases htake
    exact ⟨h, by simp⟩
  | cons part rest ih =>
    simp only [List.foldlM_cons, Option.bind_eq_bind, Option.bind_eq_some_iff] at htake
    obtain ⟨next, hnext, hrest⟩ := htake
    obtain ⟨hvalid, hparts⟩ := h.take hnext
    obtain ⟨hfinal, hread⟩ := ih hvalid hrest
    exact ⟨hfinal, by simp [hread, hparts]⟩

end Unfinished

/-- Grouping gives the one admissible grouping that its parts have. -/
theorem group?_eq_some_iff {parts : List Part} {g : Grouping} :
    group? parts = some g ↔ g.parts = parts ∧ g.Admissible := by
  constructor
  · intro h
    obtain ⟨final, hfinal, hwhole⟩ := Option.bind_eq_some_iff.mp h
    have hstart : (Unfinished.expecting []).Valid := trivial
    obtain ⟨hvalid, hparts⟩ := hstart.takeAll hfinal
    cases final with
    | expecting frames => cases hwhole
    | holding frames focus =>
      cases hwhole
      obtain ⟨hadmissible, hclosed⟩ := hvalid.1.closeAll
      refine ⟨?_, hadmissible⟩
      rw [hclosed]
      simpa [Unfinished.parts, framesParts] using hparts
  · rintro ⟨rfl, hg⟩
    exact group?_parts hg

end Equational

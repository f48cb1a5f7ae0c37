import MiniLisp.Proofs.Building.EnoughRoom
import MiniLisp.Proofs.Building.Grammar

/-!
Nesting and frames. Building needs at most two frames for each bracket around an atom, and one more
(`Expr.build_fits`), and each bracket takes at least one (`Expr.depth_le_of_build`). The number of elements
of a list counts for nothing, since the frames of one element are free again for the next.
-/

namespace MiniLisp

/-! ## Depth -/

namespace SExpr

mutual

/-- How many brackets stand around the innermost elements. -/
def depth : SExpr → Nat
  | .atom _ => 0
  | .list items => 1 + depthOf items

/-- The depth of the deepest one of several S-expressions. -/
def depthOf : List SExpr → Nat
  | [] => 0
  | item :: items => max item.depth (depthOf items)

end

theorem depthOf_atoms (names : List String) : depthOf (names.map .atom) = 0 := by
  induction names with
  | nil => rfl
  | cons name names ih =>
    rw [List.map_cons, depthOf, depth, ih]
    rfl

theorem depth_le_depthOf {items : List SExpr} {item : SExpr} (h : item ∈ items) :
    item.depth ≤ depthOf items := by
  induction items with
  | nil => cases h
  | cons first items ih =>
    rw [depthOf]
    rcases List.mem_cons.1 h with rfl | hitems
    · omega
    · have hle := ih hitems
      omega

mutual

theorem quotedFrames_le : ∀ node : SExpr, node.quotedFrames ≤ 2 * node.depth + 1
  | .atom text => by
    rw [quotedFrames]
    omega
  | .list [] => by
    rw [quotedFrames]
    omega
  | .list (head :: rest) => by
    -- The head is one frame further down and the others are two, which is what one bracket allows.
    have hhead := quotedFrames_le head
    have hrest := quotedFramesOf_le rest
    rw [quotedFrames, depth, depthOf]
    omega

theorem quotedFramesOf_le : ∀ items : List SExpr, quotedFramesOf items ≤ 2 * depthOf items + 1
  | [] => by
    rw [quotedFramesOf]
    omega
  | item :: items => by
    have hitem := quotedFrames_le item
    have hitems := quotedFramesOf_le items
    rw [quotedFramesOf, depthOf]
    omega

end

mutual

theorem depth_le_quotedFrames : ∀ node : SExpr, node.depth ≤ node.quotedFrames
  | .atom text => Nat.zero_le _
  | .list [] => by
    rw [depth, depthOf, quotedFrames]
  | .list (head :: rest) => by
    have hhead := depth_le_quotedFrames head
    have hrest := depthOf_le_quotedFramesOf rest
    rw [depth, depthOf, quotedFrames]
    omega

theorem depthOf_le_quotedFramesOf : ∀ items : List SExpr, depthOf items ≤ quotedFramesOf items
  | [] => Nat.le_refl 0
  | item :: items => by
    have hitem := depth_le_quotedFrames item
    have hitems := depthOf_le_quotedFramesOf items
    rw [depthOf, quotedFramesOf]
    omega

end

mutual

theorem debugFrames_le : ∀ node : SExpr, node.debugFrames ≤ node.depth + 1
  | .atom text => by
    rw [debugFrames, depth]
  | .list items => by
    have hitems := debugFramesOf_le items
    rw [debugFrames, depth]
    omega

theorem debugFramesOf_le : ∀ items : List SExpr, debugFramesOf items ≤ depthOf items + 1
  | [] => by
    rw [debugFramesOf]
    omega
  | item :: items => by
    have hitem := debugFrames_le item
    have hitems := debugFramesOf_le items
    rw [debugFramesOf, depthOf]
    omega

end

end SExpr

/-! ## Steps that fit -/

variable {α β : Type}

/-- With so many frames the step comes to what it comes to without a limit. -/
def Fits (frames : Nat) (step : Headroom → Except Fault α) : Prop :=
  step (.frames frames) = step .unlimited

namespace Fits

variable {frames : Nat}

theorem const (r : Except Fault α) : Fits frames fun _ => r :=
  rfl

theorem enter (h : 1 ≤ frames) : Fits frames Headroom.enter := by
  unfold Fits Headroom.enter
  rw [Headroom.holds_frames, decide_eq_true h]
  rfl

theorem report {needed : Nat} (h : needed ≤ frames) (fault : Fault) :
    Fits frames fun room => (.error (room.report needed fault) : Except Fault α) := by
  show Except.error ((Headroom.frames frames).report needed fault) = .error fault
  rw [Headroom.report_of_le h]

theorem below {step : Headroom → Except Fault α} {depth : Nat} (h : Fits (frames - depth) step) :
    Fits frames fun room => step (room.below depth) :=
  h

theorem bind {first : Headroom → Except Fault α} {rest : Headroom → α → Except Fault β}
    (h : Fits frames first) (hrest : ∀ a, Fits frames fun room => rest room a) :
    Fits frames fun room => first room >>= rest room := by
  show first (.frames frames) >>= rest (.frames frames) = first .unlimited >>= rest .unlimited
  rw [Fits] at h
  rw [h]
  exact bind_congr hrest

theorem map {step : Headroom → Except Fault α} (h : Fits frames step) (f : α → β) :
    Fits frames fun room => f <$> step room :=
  congrArg (f <$> ·) h

theorem mapM {f : Headroom → α → Except Fault β} {items : List α}
    (h : ∀ a ∈ items, Fits frames fun room => f room a) :
    Fits frames fun room => items.mapM (f room) := by
  induction items with
  | nil => exact const (.ok [])
  | cons item items ih =>
    have hitem := h item List.mem_cons_self
    have hitems := ih fun a ha => h a (List.mem_cons_of_mem item ha)
    simp only [List.mapM_cons]
    exact hitem.bind fun b => hitems.bind fun bs => const (.ok (b :: bs))

end Fits

namespace Expr

open MiniLisp.Fits

/-! ## Quoted data -/

mutual

/-- Visiting quoted data takes the frames that its builder counts. -/
theorem datum_ofQuoted_fits : ∀ (node : SExpr) {frames : Nat}, node.quotedFrames ≤ frames →
    Fits frames fun room => (ofQuoted node).datum room
  | .atom text, frames, h => by
    rw [SExpr.quotedFrames] at h
    simp only [ofQuoted, datum]
    exact (enter h).bind fun _ => const _
  | .list [], frames, h => by
    rw [SExpr.quotedFrames] at h
    simp only [ofQuoted, datum]
    exact (enter h).bind fun _ => const _
  | .list (head :: rest), frames, h => by
    rw [SExpr.quotedFrames] at h
    have hhead := datum_ofQuoted_fits head (show head.quotedFrames ≤ frames - 1 by omega)
    have hrest := dataOf_ofQuotedItems_fits rest
      (show SExpr.quotedFramesOf rest ≤ frames - 2 by omega)
    simp only [ofQuoted, datum]
    exact (enter (by omega)).bind fun _ => hhead.below.bind fun _ => hrest.below.bind fun _ => const _

theorem dataOf_ofQuotedItems_fits : ∀ (items : List SExpr) {frames : Nat},
    SExpr.quotedFramesOf items ≤ frames → Fits frames fun room => dataOf room (ofQuotedItems items)
  | [], frames, _ => by
    simp only [ofQuotedItems, dataOf]
    exact const _
  | item :: items, frames, h => by
    rw [SExpr.quotedFramesOf] at h
    have hitem := datum_ofQuoted_fits item (show item.quotedFrames ≤ frames by omega)
    have hitems := dataOf_ofQuotedItems_fits items
      (show SExpr.quotedFramesOf items ≤ frames by omega)
    simp only [ofQuotedItems, dataOf]
    exact hitem.bind fun _ => hitems.bind fun _ => const _

end

/-! ## Enough frames to build -/

theorem buildQuoted_fits {node : SExpr} {frames : Nat} (h : node.quotedFrames ≤ frames) :
    Fits frames fun room => buildQuoted room node := by
  show buildQuoted (.frames frames) node = .ok (ofQuoted node)
  unfold buildQuoted
  rw [Headroom.holds_frames, decide_eq_true h, if_pos rfl]

theorem paramNames_fits {node : SExpr} {frames : Nat} (h : node.depth ≤ frames) :
    Fits frames fun room => paramNames room node := by
  cases node with
  | atom text => exact const _
  | list params =>
    rw [SExpr.depth] at h
    simp only [paramNames]
    refine (mapM fun param hparam => ?_).bind fun names => const _
    cases param with
    | atom name => exact const _
    | list items =>
      -- The fault shows the parameter, and printing it takes a frame for each of its brackets.
      have hdepth := SExpr.depth_le_depthOf hparam
      have hframes := SExpr.debugFrames_le (.list items)
      exact report (by omega) _

mutual

theorem build_fits : ∀ (node : SExpr) {frames : Nat}, 2 * node.depth + 1 ≤ frames →
    Fits frames fun room => build room node
  | .atom text, frames, h => by
    simp only [build_atom]
    exact (enter (by omega)).bind fun _ => const _
  | .list [], frames, h => by
    simp only [build_nil]
    exact (enter (by omega)).bind fun _ => const _
  | .list (head :: rest), frames, h => by
    rw [SExpr.depth, SExpr.depthOf] at h
    -- All other parts are built with the same frames, so there may be any number of them.
    have hhead := build_fits head (show 2 * head.depth + 1 ≤ frames - 1 by omega)
    have hclauses := buildClauses_fits rest
      (show 2 * SExpr.depthOf rest + 1 ≤ frames - 2 by omega)
    have hargs := buildAll_fits rest (show 2 * SExpr.depthOf rest + 1 ≤ frames - 2 by omega)
    cases hkeyword : Keyword.ofHead? head with
    | none =>
      simp only [build_application _ hkeyword]
      exact (enter (by omega)).bind fun _ => hhead.below.bind fun func =>
        hargs.below.map (Expr.app func)
    | some keyword =>
      simp only [build_form _ hkeyword]
      refine (enter (by omega)).bind fun _ => ?_
      cases keyword with
      | quote =>
        match rest with
        | [datum] =>
          have hquoted := datum.quotedFrames_le
          rw [SExpr.depthOf] at h
          exact (buildQuoted_fits (by omega)).below.map Expr.quote
        | [] | _ :: _ :: _ => exact const _
      | cond => exact hclauses.below.map Expr.cond
      | lambda =>
        match rest with
        | [params, body] =>
          rw [SExpr.depthOf, SExpr.depthOf] at h
          have hbody := build_fits body (show 2 * body.depth + 1 ≤ frames - 2 by omega)
          exact (paramNames_fits (by omega)).below.bind fun names => hbody.below.map (Expr.lambda names)
        | [] | [_] | _ :: _ :: _ :: _ => exact const _

theorem buildClauses_fits : ∀ (clauses : List SExpr) {frames : Nat},
    2 * SExpr.depthOf clauses + 1 ≤ frames → Fits frames fun room => buildClauses room clauses
  | [], frames, h => by
    simp only [buildClauses]
    exact const _
  | .list [question, answer] :: clauses, frames, h => by
    simp only [SExpr.depthOf, SExpr.depth] at h
    -- The parts of a clause are built with the frames of the clause, though they are one bracket deeper.
    have hquestion := build_fits question (show 2 * question.depth + 1 ≤ frames by omega)
    have hanswer := build_fits answer (show 2 * answer.depth + 1 ≤ frames by omega)
    have hclauses := buildClauses_fits clauses (show 2 * SExpr.depthOf clauses + 1 ≤ frames by omega)
    simp only [buildClauses]
    exact hquestion.bind fun q => hanswer.bind fun a => hclauses.map ((q, a) :: ·)
  | .atom text :: clauses, frames, h => by
    have hframes := (SExpr.atom text).debugFrames_le
    rw [SExpr.depthOf] at h
    simp only [buildClauses]
    exact report (by omega) _
  | .list [] :: clauses, frames, h | .list [_] :: clauses, frames, h
  | .list (_ :: _ :: _ :: _) :: clauses, frames, h => by
    simp only [buildClauses]
    refine report ?_ _
    rw [SExpr.depthOf] at h
    exact (SExpr.debugFrames_le _).trans (by omega)

theorem buildAll_fits : ∀ (items : List SExpr) {frames : Nat}, 2 * SExpr.depthOf items + 1 ≤ frames →
    Fits frames fun room => buildAll room items
  | [], frames, h => by
    simp only [buildAll]
    exact const _
  | item :: items, frames, h => by
    rw [SExpr.depthOf] at h
    have hitem := build_fits item (show 2 * item.depth + 1 ≤ frames by omega)
    have hitems := buildAll_fits items (show 2 * SExpr.depthOf items + 1 ≤ frames by omega)
    simp only [buildAll]
    exact hitem.bind fun e => hitems.map (e :: ·)

end

/-! ## Frames that building takes -/

theorem pos_of_enter_bind {frames : Nat} {rest : Except Fault α} {a : α}
    (h : ((Headroom.frames frames).enter >>= fun _ => rest) = .ok a) : 1 ≤ frames ∧ rest = .ok a := by
  obtain ⟨_, henter, hrest⟩ := bind_eq_ok_iff.1 h
  unfold Headroom.enter at henter
  split at henter
  · next hholds => exact ⟨of_decide_eq_true hholds, hrest⟩
  · cases henter

theorem pos_of_build {frames : Nat} {node : SExpr} {e : Expr}
    (h : build (.frames frames) node = .ok e) : 1 ≤ frames := by
  match node with
  | .atom text =>
    rw [build_atom] at h
    exact (pos_of_enter_bind h).1
  | .list [] =>
    rw [build_nil] at h
    exact (pos_of_enter_bind h).1
  | .list (head :: rest) =>
    cases hkeyword : Keyword.ofHead? head with
    | none =>
      rw [build_application _ hkeyword] at h
      exact (pos_of_enter_bind h).1
    | some keyword =>
      rw [build_form _ hkeyword] at h
      exact (pos_of_enter_bind h).1

theorem depth_of_paramNames {frames : Nat} {node : SExpr} {names : List String}
    (h : paramNames (.frames frames) node = .ok names) : node.depth = 1 := by
  have hunlimited := (paramNames_graded node).eq_unlimited (.frames frames) (by rw [h]; simp)
  obtain ⟨rfl, -⟩ := paramNames_eq_ok_iff.1 (hunlimited.trans h)
  rw [SExpr.depth, SExpr.depthOf_atoms]

theorem depth_le_of_buildQuoted {frames : Nat} {node : SExpr} {e : Expr}
    (h : buildQuoted (.frames frames) node = .ok e) : node.depth ≤ frames := by
  unfold buildQuoted at h
  split at h
  · next hholds => exact node.depth_le_quotedFrames.trans (of_decide_eq_true hholds)
  · cases h

mutual

/-- Each bracket around an atom takes a frame to build. -/
theorem depth_le_of_build : ∀ (node : SExpr) {frames : Nat} {e : Expr},
    build (.frames frames) node = .ok e → node.depth ≤ frames
  | .atom text, frames, e, h => Nat.zero_le _
  | .list [], frames, e, h => by
    rw [build_nil] at h
    cases (pos_of_enter_bind h).2
  | .list (head :: rest), frames, e, h => by
    have hframes := pos_of_build h
    rw [SExpr.depth, SExpr.depthOf]
    cases hkeyword : Keyword.ofHead? head with
    | none =>
      rw [build_application _ hkeyword] at h
      obtain ⟨func, hhead, h⟩ := bind_eq_ok_iff.1 (pos_of_enter_bind h).2
      obtain ⟨args, hrest, -⟩ := map_eq_ok_iff.1 h
      have hhead := depth_le_of_build head hhead
      have hrest := depthOf_le_of_buildAll rest hrest
      omega
    | some keyword =>
      rw [build_form _ hkeyword] at h
      have h := (pos_of_enter_bind h).2
      rw [Keyword.ofHead?_eq_some_iff] at hkeyword
      rw [hkeyword, SExpr.depth]
      cases keyword with
      | quote =>
        match rest with
        | [datum] =>
          obtain ⟨d, hd, -⟩ := map_eq_ok_iff.1 h
          have hdatum := depth_le_of_buildQuoted hd
          rw [SExpr.depthOf, SExpr.depthOf]
          omega
        | [] | _ :: _ :: _ => cases h
      | cond =>
        obtain ⟨branches, hbranches, -⟩ := map_eq_ok_iff.1 h
        have hclauses := depthOf_lt_of_buildClauses rest hframes hbranches
        omega
      | lambda =>
        match rest with
        | [params, body] =>
          obtain ⟨names, hnames, h⟩ := bind_eq_ok_iff.1 h
          obtain ⟨built, hbuilt, -⟩ := map_eq_ok_iff.1 h
          have hparams := depth_of_paramNames hnames
          have hpos := pos_of_build hbuilt
          have hbody := depth_le_of_build body hbuilt
          rw [SExpr.depthOf, SExpr.depthOf, SExpr.depthOf]
          omega
        | [] | [_] | _ :: _ :: _ :: _ => cases h

/-- The two frames from a conditional to the parts of a clause pay for the brackets of both. -/
theorem depthOf_lt_of_buildClauses : ∀ (clauses : List SExpr) {frames : Nat}
    {branches : List (Expr × Expr)}, 1 ≤ frames →
      buildClauses (.frames (frames - 2)) clauses = .ok branches → SExpr.depthOf clauses < frames
  | [], frames, branches, hframes, h => hframes
  | .list [question, answer] :: clauses, frames, branches, hframes, h => by
    rw [buildClauses] at h
    obtain ⟨q, hq, h⟩ := bind_eq_ok_iff.1 h
    obtain ⟨a, ha, h⟩ := bind_eq_ok_iff.1 h
    obtain ⟨bs, hbs, -⟩ := map_eq_ok_iff.1 h
    have hpos := pos_of_build hq
    have hquestion := depth_le_of_build question hq
    have hanswer := depth_le_of_build answer ha
    have hclauses := depthOf_lt_of_buildClauses clauses hframes hbs
    simp only [SExpr.depthOf, SExpr.depth]
    omega
  | .atom _ :: _, frames, branches, _, h | .list [] :: _, frames, branches, _, h
  | .list [_] :: _, frames, branches, _, h | .list (_ :: _ :: _ :: _) :: _, frames, branches, _, h => by
    simp [buildClauses] at h

theorem depthOf_le_of_buildAll : ∀ (items : List SExpr) {frames : Nat} {es : List Expr},
    buildAll (.frames frames) items = .ok es → SExpr.depthOf items ≤ frames
  | [], frames, es, h => Nat.zero_le _
  | item :: items, frames, es, h => by
    rw [buildAll] at h
    obtain ⟨e, he, h⟩ := bind_eq_ok_iff.1 h
    obtain ⟨rest, hrest, -⟩ := map_eq_ok_iff.1 h
    have hitem := depth_le_of_build item he
    have hitems := depthOf_le_of_buildAll items hrest
    rw [SExpr.depthOf]
    omega

end

end Expr

end MiniLisp

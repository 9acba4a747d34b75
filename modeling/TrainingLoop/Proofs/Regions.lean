import TrainingLoop.Profile
import TrainingLoop.Proofs.KeyMap
import Mathlib.Data.List.Induction
/-!
# Nested regions

Regions of a profile are scopes: the one that is closed is always the innermost one open. The
profile has one entry for all open regions of an action, and the first of them to be closed takes it
away. So it counts the closed regions in which no other one of the same action was closed, and no
others (`nested_recorded`).
-/

namespace TrainingLoop

inductive RegionCall where
  | opened (action : String)
  | closed (action : String)

/-! ## Regions -/

/-- A region, and whether another one of its action was closed inside it. -/
structure Region where
  action : String
  holdsAlike : Bool := false

def Region.around (inner : String) (s : Region) : Region :=
  { s with holdsAlike := s.holdsAlike || s.action == inner }

theorem Region.around_of_eq {inner : String} {s : Region} (hsame : s.action = inner) :
    (s.around inner).holdsAlike = true := by
  rw [around, hsame, beq_self_eq_true, Bool.or_true]

theorem Region.around_of_ne {inner : String} {s : Region} (hother : s.action ≠ inner) :
    s.around inner = s := by
  rw [around, beq_false_of_ne hother, Bool.or_false]

/-- The regions of some calls: those still open, the innermost first, and those closed. -/
structure Regions where
  opened : List Region := []
  closed : List Region := []

namespace Regions

/-- Only the innermost region can be closed. -/
def meet? (r : Regions) : RegionCall → Option Regions
  | .opened action => some { r with opened := { action } :: r.opened }
  | .closed action =>
    match r.opened with
    | [] => none
    | innermost :: outer =>
      if innermost.action = action then
        some { opened := outer.map (Region.around action), closed := innermost :: r.closed }
      else none

/-- The regions of a properly nested sequence of calls; no other sequence has any. -/
def after? (calls : List RegionCall) : Option Regions := calls.foldlM meet? {}

def innermost? (r : Regions) (action : String) : Option Region :=
  r.opened.find? fun s => s.action == action

/-- No region of an action was closed inside another one of it. -/
def Apart (r : Regions) (action : String) : Prop :=
  ∀ s ∈ r.opened ++ r.closed, s.action = action → s.holdsAlike = false

variable {r next : Regions} {calls : List RegionCall} {call : RegionCall} {action other : String}

theorem after?_snoc : after? (calls ++ [call]) = (after? calls).bind (·.meet? call) := by
  simp [after?, List.foldlM_append]

theorem meet?_closed (hnext : r.meet? (.closed action) = some next) :
    ∃ innermost outer, r.opened = innermost :: outer ∧ innermost.action = action ∧
      next = { opened := outer.map (Region.around action), closed := innermost :: r.closed } := by
  rw [meet?] at hnext
  cases hopened : r.opened with
  | nil => simp [hopened] at hnext
  | cons innermost outer =>
      simp only [hopened, Option.ite_none_right_eq_some, Option.some.injEq] at hnext
      exact ⟨innermost, outer, rfl, hnext.1, hnext.2.symm⟩

theorem innermost?_eq_some {s : Region} (hfound : r.innermost? action = some s) :
    s ∈ r.opened ∧ s.action = action :=
  ⟨List.mem_of_find?_eq_some hfound, by simpa using List.find?_some hfound⟩

theorem find?_map_around (outer : List Region) :
    (outer.map (Region.around action)).find? (fun s => s.action == other) =
      (outer.find? fun s => s.action == other).map (Region.around action) := by
  rw [List.find?_map]
  rfl

theorem Apart.of_meet? (hnext : r.meet? call = some next) (h : next.Apart action) :
    r.Apart action := by
  intro s hs hsame
  cases call with
  | opened other =>
      obtain rfl := Option.some.inj hnext
      exact h s (List.mem_cons_of_mem _ hs) hsame
  | closed other =>
      obtain ⟨innermost, outer, hopened, -, rfl⟩ := meet?_closed hnext
      rw [hopened] at hs
      simp only [List.cons_append, List.mem_cons, List.mem_append] at hs
      rcases hs with rfl | hs | hs
      · exact h s (by simp) hsame
      · have hflag := h (s.around other) (by simp [List.mem_map_of_mem hs]) hsame
        exact (Bool.or_eq_false_iff.1 hflag).1
      · exact h s (by simp [hs]) hsame

end Regions

/-! ## Profiles -/

namespace Profile

variable {p : Profile} {r next : Regions} {calls : List RegionCall} {call : RegionCall}
  {action other : String}

def meet (p : Profile) : RegionCall → Profile
  | .opened action => p.start action
  | .closed action => p.stop action

def after (calls : List RegionCall) : Profile := calls.foldl meet {}

theorem after_snoc : after (calls ++ [call]) = (after calls).meet call :=
  List.foldl_concat ..

theorem isActive_start :
    (p.start action).isActive other = (action == other || p.isActive other) := by
  by_cases hactive : p.isActive action = true
  · rw [start, if_pos hactive]
    by_cases hsame : action = other
    · subst hsame
      simp [hactive]
    · simp [hsame]
  · rw [start, if_neg hactive]
    by_cases hsame : action = other <;> simp [isActive, hsame, Ne.symm]

theorem isActive_stop (hnodup : p.active.Nodup) :
    (p.stop action).isActive other = (action != other && p.isActive other) := by
  by_cases hactive : p.isActive action = true
  · rw [stop, if_pos hactive, Bool.eq_iff_iff]
    simp [isActive, hnodup.mem_erase_iff, ne_comm]
  · rw [stop, if_neg hactive]
    by_cases hsame : action = other
    · subst hsame
      simp [hactive]
    · simp [hsame]

theorem count_start : (p.start action).count other = p.count other := by
  rw [start]
  split <;> rfl

theorem count_stop : (p.stop action).count other =
    p.count other + if action = other ∧ p.isActive action = true then 1 else 0 := by
  by_cases hactive : p.isActive action = true
  · rw [stop, if_pos hactive, count, count, KeyMap.get?_alter]
    by_cases hsame : action = other
    · subst hsame
      simp [hactive]
    · simp [hsame]
  · rw [stop, if_neg hactive, if_neg (not_and_of_not_right _ hactive), Nat.add_zero]

theorem nodup_start (hnodup : p.active.Nodup) : (p.start action).active.Nodup := by
  rw [start]
  split
  · exact hnodup
  · rename_i hactive
    exact List.nodup_cons.2 ⟨by simpa [isActive] using hactive, hnodup⟩

theorem nodup_stop (hnodup : p.active.Nodup) : (p.stop action).active.Nodup := by
  rw [stop]
  split
  · exact hnodup.erase action
  · exact hnodup

/-! ## What a profile knows of regions -/

/-- The profile has counted the closed regions in which no other one of their action was closed, and
an action is active if that is so of its innermost open region. -/
structure Follows (p : Profile) (r : Regions) : Prop where
  nodup : p.active.Nodup
  count : ∀ action, p.count action = r.closed.countP fun s => s.action == action && !s.holdsAlike
  active : ∀ action, p.isActive action = (r.innermost? action).any fun s => !s.holdsAlike

theorem Follows.opened (h : p.Follows r) (action : String) :
    (p.start action).Follows { r with opened := { action } :: r.opened } := by
  refine ⟨nodup_start h.nodup, fun other => ?_, fun other => ?_⟩
  · rw [count_start, h.count]
  · rw [isActive_start, h.active, Regions.innermost?, Regions.innermost?, List.find?_cons]
    cases action == other <;> rfl

theorem Follows.closed {innermost : Region} {outer : List Region} (h : p.Follows r)
    (hopened : r.opened = innermost :: outer) :
    (p.stop innermost.action).Follows
      { opened := outer.map (Region.around innermost.action)
        closed := innermost :: r.closed } := by
  have hown : p.isActive innermost.action = !innermost.holdsAlike := by
    rw [h.active, Regions.innermost?, hopened, List.find?_cons_of_pos (by simp)]
    rfl
  refine ⟨nodup_stop h.nodup, fun other => ?_, fun other => ?_⟩
  · rw [count_stop, h.count, hown, List.countP_cons]
    simp
  · rw [isActive_stop h.nodup, h.active, Regions.innermost?, Regions.innermost?, hopened,
      Regions.find?_map_around]
    have hmarked : ((outer.find? fun s => s.action == other).map
        (Region.around innermost.action)).any (fun s => !s.holdsAlike) =
          (innermost.action != other &&
            (outer.find? fun s => s.action == other).any fun s => !s.holdsAlike) := by
      cases hfound : outer.find? fun s => s.action == other with
      | none => rw [Option.map_none, Option.any_none, Bool.and_false]
      | some s =>
          have haction : s.action = other := by simpa using List.find?_some hfound
          rw [Option.map_some, Option.any_some, Option.any_some]
          by_cases hsame : innermost.action = other
          · rw [Region.around_of_eq (haction.trans hsame.symm)]
            simp [hsame]
          · rw [Region.around_of_ne fun heq => hsame (heq.symm.trans haction)]
            simp [hsame]
    rw [hmarked, List.find?_cons, bne]
    cases innermost.action == other <;> rfl

theorem Follows.meet (h : p.Follows r) (hnext : r.meet? call = some next) :
    (p.meet call).Follows next := by
  cases call with
  | opened action =>
      obtain rfl := Option.some.inj hnext
      exact h.opened action
  | closed action =>
      obtain ⟨innermost, outer, hopened, rfl, rfl⟩ := Regions.meet?_closed hnext
      exact h.closed hopened

theorem follows_after (hnested : Regions.after? calls = some r) : (after calls).Follows r := by
  induction calls using List.reverseRecOn generalizing r with
  | nil =>
      obtain rfl := Option.some.inj hnested
      exact ⟨List.nodup_nil, fun _ => rfl, fun _ => rfl⟩
  | append_singleton calls call ih =>
      rw [Regions.after?_snoc] at hnested
      obtain ⟨before, hbefore, hcall⟩ := Option.bind_eq_some_iff.1 hnested
      rw [after_snoc]
      exact (ih hbefore).meet hcall

structure Shows (p : Profile) (r : Regions) (action : String) : Prop where
  count : p.count action = r.closed.countP fun s => s.action == action
  active : p.isActive action = true ↔ ∃ s ∈ r.opened, s.action = action

theorem Follows.shows (h : p.Follows r) (hapart : r.Apart action) : p.Shows r action := by
  constructor
  · rw [h.count]
    refine List.countP_congr fun s hs => ?_
    have hflag := hapart s (List.mem_append_right _ hs)
    by_cases hsame : s.action = action <;> simp [hsame, hflag]
  · rw [h.active, Option.any_eq_true]
    constructor
    · rintro ⟨s, hfound, -⟩
      exact ⟨s, Regions.innermost?_eq_some hfound⟩
    · rintro ⟨s, hs, hsame⟩
      cases hfound : r.innermost? action with
      | none => exact absurd hsame (by simpa using List.find?_eq_none.1 hfound s hs)
      | some s =>
          obtain ⟨hmem, haction⟩ := Regions.innermost?_eq_some hfound
          exact ⟨s, rfl, by rw [hapart s (List.mem_append_left _ hmem) haction]; rfl⟩

/-- A call after which the profile shows the regions of an action leaves them apart: it would
otherwise have closed one of them inside another one, which is open and not active. -/
theorem Shows.apart (h : (p.meet call).Shows next action) (hfollows : (p.meet call).Follows next)
    (hnext : r.meet? call = some next) (hapart : r.Apart action) : next.Apart action := by
  intro s hs hsame
  cases call with
  | opened other =>
      obtain rfl := Option.some.inj hnext
      rcases List.mem_cons.1 hs with rfl | hs
      · rfl
      · exact hapart s hs hsame
  | closed other =>
      obtain ⟨innermost, outer, hopened, rfl, rfl⟩ := Regions.meet?_closed hnext
      have hbefore (t : Region) (ht : t ∈ innermost :: outer ++ r.closed) :
          t.action = action → t.holdsAlike = false :=
        hapart t (hopened ▸ ht)
      rcases List.mem_append.1 hs with hs | hs
      · have hactive := h.active.2 ⟨s, hs, hsame⟩
        rw [hfollows.active, Option.any_eq_true] at hactive
        obtain ⟨u, hfound, hunmarked⟩ := hactive
        obtain ⟨hu, huaction⟩ := Regions.innermost?_eq_some hfound
        obtain ⟨v, -, rfl⟩ := List.mem_map.1 hu
        obtain ⟨t, ht, rfl⟩ := List.mem_map.1 hs
        have hother : t.action ≠ innermost.action := by
          intro halike
          have hmarked : (v.around innermost.action).holdsAlike = true :=
            Region.around_of_eq (huaction.trans (hsame.symm.trans halike))
          rw [hmarked] at hunmarked
          cases hunmarked
        rw [Region.around_of_ne hother]
        exact hbefore t (by simp [ht]) hsame
      · have hmem : s ∈ innermost :: outer ++ r.closed := by
          rcases List.mem_cons.1 hs with rfl | hs
          · exact List.mem_cons_self
          · exact List.mem_append_right _ hs
        exact hbefore s hmem hsame

/-- The profile shows the regions of an action after every call just if none of them was closed
inside another one. -/
theorem shows_iff_apart (hnested : Regions.after? calls = some r) (action : String) :
    (∀ earlier, earlier <+: calls → ∀ r', Regions.after? earlier = some r' →
      (after earlier).Shows r' action) ↔ r.Apart action := by
  have hfollows := follows_after hnested
  induction calls using List.reverseRecOn generalizing r with
  | nil =>
      obtain rfl := Option.some.inj hnested
      refine ⟨fun _ => nofun, fun hapart earlier hearlier r' hr' => ?_⟩
      obtain rfl := List.prefix_nil.1 hearlier
      obtain rfl := Option.some.inj hr'
      exact hfollows.shows hapart
  | append_singleton calls call ih =>
      have hlast := hnested
      rw [Regions.after?_snoc] at hlast
      obtain ⟨before, hbefore, hcall⟩ := Option.bind_eq_some_iff.1 hlast
      have hprefixes := ih hbefore (follows_after hbefore)
      constructor
      · intro hshows
        have hnow := hshows _ List.prefix_rfl r hnested
        rw [after_snoc] at hnow hfollows
        exact hnow.apart hfollows hcall (hprefixes.1 fun earlier hearlier =>
          hshows earlier (hearlier.trans (List.prefix_append _ _)))
      · intro hapart earlier hearlier r' hr'
        rcases List.prefix_concat_iff.1 hearlier with rfl | hearlier
        · obtain rfl := Option.some.inj (hnested.symm.trans hr')
          exact hfollows.shows hapart
        · exact hprefixes.2 (hapart.of_meet? hcall) earlier hearlier r' hr'

/-- After a properly nested sequence of calls the count of an action is that of its closed regions
in which no other one of it was closed, and the action is active if its innermost open region is
such a one. So the count is that of all its closed regions, and it is active while one is open,
after every call just if none of its regions was closed inside another one. -/
theorem nested_recorded (hnested : Regions.after? calls = some r) (action : String) :
    (after calls).count action =
        r.closed.countP (fun s => s.action == action && !s.holdsAlike) ∧
      ((after calls).isActive action = true ↔
        ∃ s, r.innermost? action = some s ∧ s.holdsAlike = false) ∧
      ((∀ earlier, earlier <+: calls → ∀ r', Regions.after? earlier = some r' →
          (after earlier).Shows r' action) ↔ r.Apart action) := by
  have hfollows := follows_after hnested
  refine ⟨hfollows.count action, ?_, shows_iff_apart hnested action⟩
  rw [hfollows.active, Option.any_eq_true]
  simp

/-- A hook in a hook, of which the inner one is over, after another one. -/
def hookInHook : List RegionCall :=
  [.opened "epoch", .opened "hook", .closed "hook", .opened "hook", .opened "hook", .closed "hook"]

theorem nested_recorded_hookInHook :
    ∃ r, Regions.after? hookInHook = some r ∧
      (after hookInHook).count "hook" = 2 ∧ ¬ (after hookInHook).isActive "hook" = true ∧
      ∀ earlier, earlier <+: hookInHook → ∀ r', Regions.after? earlier = some r' →
        (after earlier).Shows r' "epoch" := by
  have hnested : Regions.after? hookInHook =
      some ⟨[⟨"hook", true⟩, ⟨"epoch", false⟩], [⟨"hook", false⟩, ⟨"hook", false⟩]⟩ := rfl
  obtain ⟨hcount, hactive, -⟩ := nested_recorded hnested "hook"
  refine ⟨_, hnested, hcount, ?_, (nested_recorded hnested "epoch").2.2.2 ?_⟩
  · rintro h
    obtain ⟨s, hinnermost, hmarked⟩ := hactive.1 h
    obtain rfl := Option.some.inj hinnermost
    cases hmarked
  · unfold Regions.Apart
    decide

/-- A region that was opened twice and closed once is still open, but it is not active; when it is
closed as well, one of the two closed regions is counted. -/
theorem twiceOpened_unrecorded :
    (∃ r, Regions.after? [.opened "x", .opened "x", .closed "x"] = some r ∧
      (∃ s ∈ r.opened, s.action = "x") ∧
      (after [.opened "x", .opened "x", .closed "x"]).isActive "x" = false ∧
      ¬ (after [.opened "x", .opened "x", .closed "x"]).Shows r "x") ∧
    ∃ r, Regions.after? [.opened "x", .opened "x", .closed "x", .closed "x"] = some r ∧
      r.closed.countP (fun s => s.action == "x") = 2 ∧
      (after [.opened "x", .opened "x", .closed "x", .closed "x"]).count "x" = 1 ∧
      ¬ (after [.opened "x", .opened "x", .closed "x", .closed "x"]).Shows r "x" := by
  constructor
  · have hopen : ∃ s ∈ [Region.mk "x" true], s.action = "x" := ⟨_, List.mem_cons_self, rfl⟩
    exact ⟨_, rfl, hopen, rfl, fun h => Bool.false_ne_true (h.active.2 hopen)⟩
  · exact ⟨_, rfl, rfl, rfl, fun h => absurd h.count (by decide)⟩

end Profile

end TrainingLoop

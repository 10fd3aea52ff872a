/-
Module: Gateway.Proofs.Scopes
Layer: Proofs
Purpose: What a table keeps of its scopes is what became of them.  For each part of a table there is
  one lemma that says all that a step can do to it (`family?_step_iff`, `families_step_iff`, ...),
  and the same for the history (`refers_concat_iff`, `Happened.concat_iff`); so a step keeps the two
  in agreement (`Faithful.step`), and by induction so does any list of actions (`faithful_after`).
Main exports: ScopeTable.family?_step_iff, ScopeTable.families_step_iff, ScopeTable.Faithful,
  ScopeTable.Faithful.step, ScopeTable.faithful_after, ScopeTable.Tells,
  ScopeTable.scopes_follow_history
-/
import Gateway.Scope.History

namespace Gateway.ScopeTable

variable {t : ScopeTable} {action : Action} {actions past : List Action}
  {handle guard watcher scope : Nat} {deadline : Option Instant} {seen : Scope}

/-! ### What a step can do -/

/-- The family that an action cancels. -/
def target? (t : ScopeTable) : Action → Option Nat
  | .cancel handle => t.family? handle
  | .dropGuard guard => t.guards[guard]?
  | _ => none

/-- The family that a new handle refers to. -/
def referent? (t : ScopeTable) : Action → Option Nat
  | .fromTimeout _ | .unbounded | .endingAt _ => some t.families.length
  | .clone handle => t.family? handle
  | _ => none

theorem now_step_eq (t : ScopeTable) (action : Action) :
    (t.step action).now = t.now + duration action := by
  cases action with
  | cancel handle => simp only [step]; cases t.family? handle <;> rfl
  | dropGuard guard => simp only [step]; cases t.guards[guard]? <;> rfl
  | _ => rfl

theorem concat_getElem?_eq_some {α : Type} {list : List α} {new value : α} {index : Nat} :
    (list ++ [new])[index]? = some value ↔
      list[index]? = some value ∨ index = list.length ∧ value = new := by
  rcases Nat.lt_trichotomy index list.length with hlt | rfl | hgt
  · rw [List.getElem?_append_left hlt]
    exact ⟨Or.inl, fun h => h.elim id fun hend => absurd hend.1 (Nat.ne_of_lt hlt)⟩
  · simp [eq_comm]
  · have hnone : list[index]? = none := List.getElem?_eq_none (Nat.le_of_lt hgt)
    have hnone' : (list ++ [new])[index]? = none :=
      List.getElem?_eq_none (by rw [List.length_append, List.length_singleton]; omega)
    rw [hnone, hnone']
    simp [Nat.ne_of_gt hgt]

theorem append_toList_getElem?_eq_some {list : List Nat} {new : Option Nat} {value index : Nat} :
    (list ++ new.toList)[index]? = some value ↔
      list[index]? = some value ∨ index = list.length ∧ new = some value := by
  cases new with
  | none => simp
  | some new =>
      rw [Option.toList_some, concat_getElem?_eq_some, Option.some_inj]
      simp only [eq_comm]

theorem family?_concat {handles : List (Option Nat)} {new : Option Nat} :
    (handles ++ [new])[handle]?.join = some scope ↔
      (handle = handles.length ∧ new = some scope) ∨ handles[handle]?.join = some scope := by
  rw [Option.join_eq_some_iff, concat_getElem?_eq_some, ← Option.join_eq_some_iff, or_comm]
  simp only [eq_comm]

/-- A handle is new, or it was there and has not been dropped. -/
theorem family?_step_iff : (t.step action).family? handle = some scope ↔
    (handle = t.handles.length ∧ t.referent? action = some scope) ∨
      (t.family? handle = some scope ∧ action ≠ .drop handle) := by
  have hcancel : ∀ family, (t.cancelFamily family).family? handle = t.family? handle := by
    intro family
    cases family <;> rfl
  cases action with
  | fromTimeout | unbounded | endingAt | clone =>
      refine family?_concat.trans ?_
      simp [referent?, family?]
  | cancel other => simp [step, hcancel, referent?]
  | dropGuard guard => simp [step, hcancel, referent?]
  | drop other =>
      change (t.handles.set other none)[handle]?.join = some scope ↔ _
      by_cases hother : other = handle
      · subst hother
        rw [List.getElem?_set_self']
        cases t.handles[other]? <;> simp [referent?]
      · simp [List.getElem?_set_ne hother, referent?, family?, hother]
  | guard | watch | advance => simp [step, family?, referent?]

/-- A guard is new, or it was there; it stays even after it has been dropped. -/
theorem guards_step_iff : (t.step action).guards[guard]? = some scope ↔
    t.guards[guard]? = some scope ∨
      ∃ handle, action = .guard handle ∧ t.family? handle = some scope ∧
        guard = t.guards.length := by
  have hcancel : ∀ family, (t.cancelFamily family).guards = t.guards := by
    intro family
    cases family <;> rfl
  cases action with
  | guard handle =>
      refine append_toList_getElem?_eq_some.trans (or_congr_right ?_)
      simp [and_comm]
  | cancel other => simp [step, hcancel]
  | dropGuard other => simp [step, hcancel]
  | _ => simp [step, addFamily]

/-- A watcher is new, or it was there. -/
theorem watchers_step_iff : (t.step action).watchers[watcher]? = some scope ↔
    t.watchers[watcher]? = some scope ∨
      ∃ handle, action = .watch handle ∧ t.family? handle = some scope ∧
        watcher = t.watchers.length := by
  have hcancel : ∀ family, (t.cancelFamily family).watchers = t.watchers := by
    intro family
    cases family <;> rfl
  cases action with
  | watch handle =>
      refine append_toList_getElem?_eq_some.trans (or_congr_right ?_)
      simp [and_comm]
  | cancel other => simp [step, hcancel]
  | dropGuard other => simp [step, hcancel]
  | _ => simp [step, addFamily]

theorem step_of_opening (h : opening? t.now action = some deadline) :
    t.step action = t.addFamily ⟨deadline, false⟩ := by
  cases action with
  | fromTimeout timeout =>
      cases h
      simp only [step, Scope.ofTimeout]
      split <;> rfl
  | unbounded | endingAt => cases h; rfl
  | _ => cases h

theorem families_of_not_opening (h : opening? t.now action = none) :
    (t.step action).families = (t.cancelFamily (t.target? action)).families := by
  cases action with
  | fromTimeout | unbounded | endingAt => cases h
  | _ => rfl

theorem families_cancelFamily (family : Option Nat) (scope : Nat) :
    (t.cancelFamily family).families[scope]? =
      t.families[scope]?.map fun seen => if family = some scope then seen.cancel else seen := by
  cases family with
  | none => simp [cancelFamily]
  | some f => simp [cancelFamily, List.getElem?_modify]

/-- A scope is new and not cancelled, or it was there and has been cancelled or left as it was. -/
theorem families_step_iff : (t.step action).families[scope]? = some seen ↔
    (scope = t.families.length ∧
      ∃ deadline, opening? t.now action = some deadline ∧ seen = ⟨deadline, false⟩) ∨
    ∃ old, t.families[scope]? = some old ∧
      seen = if t.target? action = some scope then old.cancel else old := by
  cases hopening : opening? t.now action with
  | none =>
      rw [families_of_not_opening hopening, families_cancelFamily, Option.map_eq_some_iff]
      simp [eq_comm]
  | some deadline =>
      have htarget : t.target? action = none := by
        cases action <;> first | rfl | cases hopening
      rw [step_of_opening hopening]
      refine concat_getElem?_eq_some.trans ?_
      simp [htarget, or_comm]

/-- Handles, guards and watchers are of families that are there. -/
structure Known (t : ScopeTable) : Prop where
  of_handle : ∀ {handle scope : Nat}, t.family? handle = some scope → scope < t.families.length
  of_guard : ∀ {guard scope : Nat}, t.guards[guard]? = some scope → scope < t.families.length
  of_watcher : ∀ {watcher scope : Nat},
    t.watchers[watcher]? = some scope → scope < t.families.length

theorem length_families_step (t : ScopeTable) (action : Action) :
    (t.step action).families.length =
      t.families.length + (if (opening? t.now action).isSome then 1 else 0) := by
  have hcancel : ∀ family, (t.cancelFamily family).families.length = t.families.length := by
    intro family
    cases family <;> simp [cancelFamily]
  cases hopening : opening? t.now action with
  | none => rw [families_of_not_opening hopening, hcancel]; rfl
  | some deadline => simp [step_of_opening hopening, addFamily]

theorem Known.referent (h : t.Known) (hreferent : t.referent? action = some scope) :
    scope < (t.step action).families.length := by
  rw [length_families_step]
  cases action with
  | fromTimeout | unbounded | endingAt =>
      cases hreferent
      exact Nat.lt_succ_self _
  | clone => exact Nat.lt_add_right _ (h.of_handle hreferent)
  | _ => cases hreferent

theorem Known.step (h : t.Known) (action : Action) : (t.step action).Known := by
  have hlater : ∀ {scope}, scope < t.families.length → scope < (t.step action).families.length := by
    intro scope hlt
    rw [length_families_step]
    exact Nat.lt_add_right _ hlt
  constructor
  · intro handle scope hhandle
    rcases family?_step_iff.1 hhandle with ⟨_, hnew⟩ | ⟨hold, _⟩
    · exact h.referent hnew
    · exact hlater (h.of_handle hold)
  · intro guard scope hguard
    rcases guards_step_iff.1 hguard with hold | ⟨handle, _, hhandle, _⟩
    · exact hlater (h.of_guard hold)
    · exact hlater (h.of_handle hhandle)
  · intro watcher scope hwatcher
    rcases watchers_step_iff.1 hwatcher with hold | ⟨handle, _, hhandle, _⟩
    · exact hlater (h.of_watcher hold)
    · exact hlater (h.of_handle hhandle)

/-- A step gives a deadline to the scope that it opens, and to no other. -/
theorem deadline_step_iff :
    (∃ seen, (t.step action).families[scope]? = some seen ∧ seen.deadline = deadline) ↔
      (∃ seen, t.families[scope]? = some seen ∧ seen.deadline = deadline) ∨
        (opening? t.now action = some deadline ∧ scope = t.families.length) := by
  constructor
  · rintro ⟨seen, hseen, rfl⟩
    rcases families_step_iff.1 hseen with ⟨hscope, new, hopening, rfl⟩ | ⟨old, hold, rfl⟩
    · exact Or.inr ⟨hopening, hscope⟩
    · refine Or.inl ⟨old, hold, ?_⟩
      split <;> rfl
  · rintro (⟨old, hold, rfl⟩ | ⟨hopening, hscope⟩)
    · refine ⟨_, families_step_iff.2 (Or.inr ⟨old, hold, rfl⟩), ?_⟩
      split <;> rfl
    · exact ⟨_, families_step_iff.2 (Or.inl ⟨hscope, deadline, hopening, rfl⟩), rfl⟩

/-- A step cancels the scope that it is aimed at, and no other. -/
theorem cancelled_step_iff (hknown : t.Known) :
    (∃ seen, (t.step action).families[scope]? = some seen ∧ seen.cancelled = true) ↔
      (∃ seen, t.families[scope]? = some seen ∧ seen.cancelled = true) ∨
        t.target? action = some scope := by
  constructor
  · rintro ⟨seen, hseen, hcancelled⟩
    rcases families_step_iff.1 hseen with ⟨_, new, _, rfl⟩ | ⟨old, hold, rfl⟩
    · cases hcancelled
    · split at hcancelled
      · rename_i htarget
        exact Or.inr htarget
      · exact Or.inl ⟨old, hold, hcancelled⟩
  · rintro (⟨old, hold, hcancelled⟩ | htarget)
    · refine ⟨_, families_step_iff.2 (Or.inr ⟨old, hold, rfl⟩), ?_⟩
      split
      · rfl
      · exact hcancelled
    · have hlt : scope < t.families.length := by
        cases action with
        | cancel handle => exact hknown.of_handle htarget
        | dropGuard guard => exact hknown.of_guard htarget
        | _ => cases htarget
      refine ⟨_, families_step_iff.2 (Or.inr ⟨_, List.getElem?_eq_getElem hlt, rfl⟩), ?_⟩
      rw [if_pos htarget]
      rfl

/-! ### What an action adds to the history -/

theorem elapsed_append (first rest : List Action) :
    elapsed (first ++ rest) = elapsed first + elapsed rest := by
  induction first with
  | nil => rw [List.nil_append, elapsed, Nat.zero_add]
  | cons action first ih => rw [List.cons_append, elapsed, ih, elapsed, Nat.add_assoc]

theorem elapsed_concat (past : List Action) (action : Action) :
    elapsed (past ++ [action]) = elapsed past + duration action :=
  elapsed_append past [action]

theorem after_concat (past : List Action) (action : Action) :
    empty.after (past ++ [action]) = (empty.after past).step action := by
  rw [after, List.foldl_append]
  rfl

variable {kind : List Action → Action → Prop}

theorem not_happened_nil : ¬ Happened kind [] := by
  rintro ⟨past, action, rest, h, _⟩
  exact List.append_ne_nil_of_right_ne_nil past (List.cons_ne_nil action rest) h.symm

/-- What happened stays so. -/
theorem Happened.append (h : Happened kind actions) (more : List Action) :
    Happened kind (actions ++ more) := by
  obtain ⟨past, action, rest, rfl, hkind⟩ := h
  exact ⟨past, action, rest ++ more, by simp, hkind⟩

/-- The last action is of the kind, or it happened before. -/
theorem happened_concat_iff :
    Happened kind (past ++ [action]) ↔ Happened kind past ∨ kind past action := by
  constructor
  · rintro ⟨before, earlier, rest, heq, hkind⟩
    rcases List.eq_nil_or_concat rest with rfl | ⟨rest, last, rfl⟩
    · obtain ⟨rfl, hlast⟩ := List.append_inj' heq rfl
      cases hlast
      exact Or.inr hkind
    · rw [List.concat_eq_append, ← List.cons_append, ← List.append_assoc] at heq
      exact Or.inl ⟨before, earlier, rest, (List.append_inj' heq rfl).1, hkind⟩
  · rintro (h | h)
    · exact h.append [action]
    · exact ⟨past, action, [], rfl, h⟩

theorem not_refers_nil : ¬ Refers [] handle scope := by
  intro h
  generalize hactions : ([] : List Action) = actions at h
  cases h <;> simp at hactions

/-- What the table says of a new handle is what the history says. -/
theorem refers_concat_iff : Refers (past ++ [action]) handle scope ↔
    (handle = (empty.after past).handles.length ∧
      ((opening? (elapsed past) action).isSome ∧ scope = (empty.after past).families.length ∨
        ∃ cloned, action = .clone cloned ∧ Refers past cloned scope)) ∨
    (Refers past handle scope ∧ action ≠ .drop handle) := by
  constructor
  · intro h
    generalize hactions : past ++ [action] = actions at h
    cases h with
    | opened hopening =>
        obtain ⟨rfl, hlast⟩ := List.append_inj' hactions rfl
        cases hlast
        exact Or.inl ⟨rfl, Or.inl ⟨by rw [hopening]; rfl, rfl⟩⟩
    | cloned hcloned =>
        obtain ⟨rfl, hlast⟩ := List.append_inj' hactions rfl
        cases hlast
        exact Or.inl ⟨rfl, Or.inr ⟨_, rfl, hcloned⟩⟩
    | kept hold hdrop =>
        obtain ⟨rfl, hlast⟩ := List.append_inj' hactions rfl
        cases hlast
        exact Or.inr ⟨hold, hdrop⟩
  · rintro (⟨rfl, ⟨hopening, rfl⟩ | ⟨cloned, rfl, hcloned⟩⟩ | ⟨hold, hdrop⟩)
    · obtain ⟨deadline, hopening⟩ := Option.isSome_iff_exists.1 hopening
      exact .opened hopening
    · exact .cloned hcloned
    · exact .kept hold hdrop

/-! ### The table and its history -/

/-- What a table keeps is what became of its scopes. -/
structure Faithful (t : ScopeTable) (actions : List Action) : Prop where
  now_eq : t.now = elapsed actions
  known : t.Known
  handle_iff : ∀ handle scope, t.family? handle = some scope ↔ Refers actions handle scope
  guard_iff : ∀ guard scope, t.guards[guard]? = some scope ↔ GuardOf actions guard scope
  watcher_iff : ∀ watcher scope, t.watchers[watcher]? = some scope ↔ WatcherOf actions watcher scope
  opened_iff : ∀ scope deadline,
    (∃ seen, t.families[scope]? = some seen ∧ seen.deadline = deadline) ↔
      OpenedWith actions scope deadline
  cancelled_iff : ∀ scope, (∃ seen, t.families[scope]? = some seen ∧ seen.cancelled = true) ↔
    CancelledIn actions scope

theorem faithful_empty : Faithful empty [] where
  now_eq := rfl
  known := ⟨by simp [empty, family?], by simp [empty], by simp [empty]⟩
  handle_iff handle scope := by simp [empty, family?, not_refers_nil]
  guard_iff guard scope := by simp [empty, GuardOf, not_happened_nil]
  watcher_iff watcher scope := by simp [empty, WatcherOf, not_happened_nil]
  opened_iff scope deadline := by simp [empty, OpenedWith, not_happened_nil]
  cancelled_iff scope := by simp [empty, CancelledIn, not_happened_nil]

/-- The scope that an action cancels is the one that the history says. -/
theorem Faithful.target_iff (h : Faithful t past) :
    t.target? action = some scope ↔ Cancels scope past action := by
  cases action with
  | cancel handle => simp [target?, Cancels, h.handle_iff]
  | dropGuard guard => simp [target?, Cancels, h.guard_iff]
  | _ => simp [target?, Cancels]

theorem Faithful.referent_iff (h : Faithful t past) : t.referent? action = some scope ↔
    (opening? (elapsed past) action).isSome ∧ scope = t.families.length ∨
      ∃ cloned, action = .clone cloned ∧ Refers past cloned scope := by
  cases action with
  | fromTimeout | unbounded | endingAt => simp [referent?, opening?, eq_comm]
  | clone cloned => simp [referent?, opening?, h.handle_iff]
  | _ => simp [referent?, opening?]

/-- A step keeps the table and its history in agreement. -/
theorem Faithful.step (h : Faithful (empty.after past) past) (action : Action) :
    Faithful (empty.after (past ++ [action])) (past ++ [action]) := by
  rw [after_concat]
  constructor
  case now_eq => rw [now_step_eq, h.now_eq, elapsed_concat]
  case known => exact h.known.step action
  case handle_iff =>
    intro handle scope
    rw [family?_step_iff, refers_concat_iff, h.referent_iff, h.handle_iff]
  case guard_iff =>
    intro guard scope
    rw [guards_step_iff, GuardOf, happened_concat_iff, h.guard_iff, GuardOf]
    simp only [h.handle_iff]
  case watcher_iff =>
    intro watcher scope
    rw [watchers_step_iff, WatcherOf, happened_concat_iff, h.watcher_iff, WatcherOf]
    simp only [h.handle_iff]
  case opened_iff =>
    intro scope deadline
    rw [deadline_step_iff, OpenedWith, happened_concat_iff, ← OpenedWith, ← h.opened_iff, h.now_eq]
  case cancelled_iff =>
    intro scope
    rw [cancelled_step_iff h.known, CancelledIn, happened_concat_iff, ← CancelledIn,
      ← h.cancelled_iff, ← h.target_iff]

/-- So does a run. -/
theorem Faithful.run (h : Faithful (empty.after past) past) (actions : List Action) :
    Faithful (empty.after (past ++ actions)) (past ++ actions) := by
  induction actions generalizing past with
  | nil => rwa [List.append_nil]
  | cons action actions ih =>
      rw [List.append_cons]
      exact ih (h.step action)

/-- Whatever is done, what a table keeps of its scopes is what became of them. -/
theorem faithful_after (actions : List Action) : Faithful (empty.after actions) actions := by
  have h : Faithful (empty.after []) [] := faithful_empty
  exact h.run actions

/-! ### What a scope tells -/

/-- The scope was opened as one without a deadline; a timeout of zero stands for that. -/
def Unlimited (actions : List Action) (scope : Nat) : Prop :=
  Happened (fun past action => (action = .unbounded ∨ action = .fromTimeout 0) ∧
    scope = (empty.after past).families.length) actions

/-- What a scope that was opened with this deadline tells of itself, whoever asks. -/
structure Tells (actions : List Action) (scope : Nat) (deadline : Option Instant) (seen : Scope) :
    Prop where
  opened_iff : ∀ other, OpenedWith actions scope other ↔ other = deadline
  handles_agree : ∀ handle, Refers actions handle scope →
    (empty.after actions).view.handles[handle]? = some (some (viewScope (elapsed actions) seen))
  watchers_agree : ∀ watcher, WatcherOf actions watcher scope →
    (empty.after actions).view.watchers[watcher]? = some (seen.isDone (elapsed actions))
  cancelled_iff : seen.cancelled = true ↔ CancelledIn actions scope
  done_iff : seen.isDone (elapsed actions) = true ↔ DoneIn actions scope
  remaining_eq : seen.remaining (elapsed actions) = deadline.map (· - elapsed actions)
  unlimited_iff : seen.remaining (elapsed actions) = none ↔ Unlimited actions scope

theorem opening?_eq_unlimited_iff {now : Instant} :
    opening? now action = some none ↔ action = .unbounded ∨ action = .fromTimeout 0 := by
  cases action <;> simp [opening?]

theorem openedWith_none_iff : OpenedWith actions scope none ↔ Unlimited actions scope := by
  simp only [OpenedWith, opening?_eq_unlimited_iff, Unlimited]

namespace Faithful

variable (h : Faithful (empty.after actions) actions)
  (hseen : (empty.after actions).families[scope]? = some seen)
include h hseen

theorem openedWith_iff : OpenedWith actions scope deadline ↔ deadline = seen.deadline := by
  rw [← h.opened_iff, hseen]
  simp [eq_comm]

theorem cancelledIn_iff : seen.cancelled = true ↔ CancelledIn actions scope := by
  rw [← h.cancelled_iff, hseen]
  simp

theorem doneIn_iff : seen.isDone (elapsed actions) = true ↔ DoneIn actions scope := by
  rw [Scope.isDone, Bool.or_eq_true, h.cancelledIn_iff hseen, DoneIn, Scope.expired,
    Option.any_eq_true]
  refine or_congr_right (exists_congr fun deadline => ?_)
  rw [h.openedWith_iff hseen, decide_eq_true_eq, eq_comm]

theorem tells : Tells actions scope seen.deadline seen := by
  constructor
  case opened_iff => exact fun _ => h.openedWith_iff hseen
  case handles_agree =>
    intro handle hrefers
    have hfamily := Option.join_eq_some_iff.1 ((h.handle_iff handle scope).2 hrefers)
    simp [view, hfamily, hseen, h.now_eq]
  case watchers_agree =>
    intro watcher hwatcher
    have hfamily := (h.watcher_iff watcher scope).2 hwatcher
    simp [view, hfamily, hseen, h.now_eq]
  case cancelled_iff => exact h.cancelledIn_iff hseen
  case done_iff => exact h.doneIn_iff hseen
  case remaining_eq => rfl
  case unlimited_iff =>
    rw [← openedWith_none_iff, h.openedWith_iff hseen, Scope.remaining, Option.map_eq_none_iff,
      eq_comm]

end Faithful

/-- What anything refers to has been opened. -/
theorem exists_tells (hscope : (∃ handle, Refers actions handle scope) ∨
    ∃ watcher, WatcherOf actions watcher scope) : ∃ deadline seen,
      Tells actions scope deadline seen := by
  have h := faithful_after actions
  have hlt : scope < (empty.after actions).families.length := by
    rcases hscope with ⟨handle, hrefers⟩ | ⟨watcher, hwatcher⟩
    · exact h.known.of_handle ((h.handle_iff handle scope).2 hrefers)
    · exact h.known.of_watcher ((h.watcher_iff watcher scope).2 hwatcher)
  exact ⟨_, _, h.tells (List.getElem?_eq_getElem hlt)⟩

theorem CancelledIn.append (h : CancelledIn actions scope) (more : List Action) :
    CancelledIn (actions ++ more) scope :=
  Happened.append h more

theorem OpenedWith.append (h : OpenedWith actions scope deadline) (more : List Action) :
    OpenedWith (actions ++ more) scope deadline :=
  Happened.append h more

/-- What is done stays done. -/
theorem DoneIn.append (h : DoneIn actions scope) (more : List Action) :
    DoneIn (actions ++ more) scope := by
  rcases h with hcancelled | ⟨deadline, hopened, hpassed⟩
  · exact Or.inl (hcancelled.append more)
  · refine Or.inr ⟨deadline, hopened.append more, ?_⟩
    rw [elapsed_append]
    exact Nat.le_add_right_of_le hpassed

/-- An ended scope stays ended, and the time that is left does not grow. -/
structure Ages (before : Scope) (now : Instant) (after : Scope) (later : Instant) : Prop where
  done : before.isDone now = true → after.isDone later = true
  remaining : ∀ left, before.remaining now = some left →
    ∃ rest, after.remaining later = some rest ∧ rest ≤ left

theorem Tells.ages (h : Tells actions scope deadline seen) (more : List Action) :
    ∃ after, Tells (actions ++ more) scope deadline after ∧
      Ages seen (elapsed actions) after (elapsed (actions ++ more)) := by
  have hopened : OpenedWith (actions ++ more) scope deadline :=
    ((h.opened_iff deadline).2 rfl).append more
  have hfaithful := faithful_after (actions ++ more)
  obtain ⟨after, hafter, rfl⟩ := (hfaithful.opened_iff scope deadline).2 hopened
  have htells := hfaithful.tells hafter
  refine ⟨after, htells, ?_, ?_⟩
  · intro hdone
    exact htells.done_iff.2 ((h.done_iff.1 hdone).append more)
  · intro left hleft
    rw [h.remaining_eq] at hleft
    obtain ⟨deadline, hdeadline, rfl⟩ := Option.map_eq_some_iff.1 hleft
    refine ⟨deadline - elapsed (actions ++ more), by rw [htells.remaining_eq, hdeadline]; rfl, ?_⟩
    apply Nat.sub_le_sub_left
    rw [elapsed_append]
    exact Nat.le_add_right _ _

/-- After any actions: handles and watchers are of the scopes that the history says.  A scope that
anything refers to tells all of them the same: that it is cancelled, exactly if someone cancelled it
through a handle or by dropping a guard; that it has ended, exactly if it is cancelled or its
deadline has passed; and how much time is left.  Whatever is done after that, it stays ended, and
the time that is left does not grow. -/
theorem scopes_follow_history (actions : List Action) :
    (∀ handle scope, (empty.after actions).family? handle = some scope ↔
      Refers actions handle scope) ∧
    (∀ watcher scope, (empty.after actions).watchers[watcher]? = some scope ↔
      WatcherOf actions watcher scope) ∧
    ∀ scope, ((∃ handle, Refers actions handle scope) ∨
        ∃ watcher, WatcherOf actions watcher scope) →
      ∃ deadline seen, Tells actions scope deadline seen ∧
        ∀ more, ∃ after, Tells (actions ++ more) scope deadline after ∧
          Ages seen (elapsed actions) after (elapsed (actions ++ more)) := by
  have h := faithful_after actions
  refine ⟨h.handle_iff, h.watcher_iff, ?_⟩
  intro scope hscope
  obtain ⟨deadline, seen, htells⟩ := exists_tells hscope
  exact ⟨deadline, seen, htells, fun more => htells.ages more⟩

/-- The only handle of a scope is dropped; dropping its guard cancels it nevertheless, and whoever
watches it is told. -/
theorem watcher_told_after_handle_dropped :
    let actions := [.fromTimeout 5, .guard 0, .watch 0, .drop 0, .dropGuard 0]
    (empty.after actions).watchers[0]? = some 0 ∧ WatcherOf actions 0 0 ∧
      (∃ deadline seen, Tells actions 0 deadline seen) ∧
      (empty.after actions).view.watchers[0]? = some true := by
  intro actions
  have h := scopes_follow_history actions
  have hwatcher : WatcherOf actions 0 0 := (h.2.1 0 0).1 rfl
  obtain ⟨deadline, seen, htells, _⟩ := h.2.2 0 (Or.inr ⟨0, hwatcher⟩)
  exact ⟨rfl, hwatcher, ⟨deadline, seen, htells⟩, by decide⟩

/-- Less than a millisecond before the timer fires, nothing is left and yet the scope has not
ended. -/
example : let t := empty.after [.endingAt 1, .watch 0, .advance 1]
    t.families.map (·.remaining t.now) = [some 0] ∧ t.view.watchers = [false] := by
  decide

end Gateway.ScopeTable

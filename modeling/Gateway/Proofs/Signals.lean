/-
Module: Gateway.Proofs.Signals
Layer: Proofs
Purpose: No signal is lost.  What a receiver gets is settled by how many signals it has not read
  (`step_receive`), and every step keeps the books of a receiver (`balances_step`): the signals sent
  since it subscribed are those that it got, those that it was told it missed, and those that are
  still unread.  So the books are right after any run (`balances_run`).
Main exports: Shutdown.log, Shutdown.Balances, Shutdown.Sound, Shutdown.reading,
  Shutdown.step_receive, Shutdown.balances_run, Shutdown.exists_subscription,
  Shutdown.no_signal_is_lost
-/
import Gateway.Shutdown

namespace Gateway.Shutdown

variable {s : Shutdown} {receiver n next : Nat} {action : Action} {actions : List Action}

/-! ### The books of a receiver -/

/-- Actions with their replies. -/
abbrev Log := List (Action × Reply)

/-- What is done to a coordinator, and what it answers. -/
def log (s : Shutdown) (actions : List Action) : Log :=
  actions.zip (s.run actions)

/-- How many signals were sent. -/
def issued (log : Log) : Nat :=
  log.countP (·.2 == .triggered)

/-- How many signals a receiver got. -/
def notified (receiver : Nat) (log : Log) : Nat :=
  log.count (.receive receiver, .notified)

/-- How many signals a receiver is told it missed. -/
def missedIn (receiver : Nat) : Action × Reply → Nat
  | (.receive other, .lagged missed) => if other = receiver then missed else 0
  | _ => 0

/-- How many signals a receiver was told it missed, all in all. -/
def missed (receiver : Nat) : Log → Nat
  | [] => 0
  | entry :: rest => missedIn receiver entry + missed receiver rest

/-- A receiver that had read everything has its books right: what was sent is what it got, what it
missed, and what it has not read. -/
def Balances (receiver : Nat) (log : Log) (unread : Nat) : Prop :=
  issued log = notified receiver log + missed receiver log + unread

theorem log_cons (s : Shutdown) (action : Action) (actions : List Action) :
    s.log (action :: actions) = (action, (s.step action).1) :: (s.step action).2.log actions := rfl

theorem after_cons (s : Shutdown) (action : Action) (actions : List Action) :
    s.after (action :: actions) = (s.step action).2.after actions := rfl

theorem after_append (s : Shutdown) (first rest : List Action) :
    s.after (first ++ rest) = (s.after first).after rest :=
  List.foldl_append

/-! ### Single receivers -/

theorem next?_eq_none_of_le (h : s.receivers.length ≤ receiver) : s.next? receiver = none := by
  rw [next?, List.getElem?_eq_none h]
  rfl

theorem lt_length_of_next? (h : s.next? receiver = some next) : receiver < s.receivers.length := by
  apply Nat.lt_of_not_le
  intro hle
  rw [next?_eq_none_of_le hle] at h
  cases h

theorem receivers_send (s : Shutdown) : s.send.receivers = s.receivers := by
  unfold send
  split <;> rfl

theorem next?_send (s : Shutdown) (receiver : Nat) : s.send.next? receiver = s.next? receiver := by
  rw [next?, receivers_send, next?]

theorem live_send (s : Shutdown) : s.send.live = s.live := by
  unfold send
  split <;> rfl

theorem sent_send (h : s.next? receiver = some next) : s.send.sent = s.sent + 1 := by
  have hany : s.receivers.any Option.isSome = true := by
    rw [next?, Option.join_eq_some_iff] at h
    exact List.any_eq_true.2 ⟨some next, List.mem_of_getElem? h, rfl⟩
  rw [send, if_pos hany]

theorem next?_moveTo_self (h : s.next? receiver = some next) (new : Option Nat) :
    (s.moveTo receiver new).next? receiver = new := by
  rw [next?, moveTo, List.getElem?_set_self (lt_length_of_next? h)]
  rfl

theorem next?_moveTo_none (s : Shutdown) (receiver : Nat) :
    (s.moveTo receiver none).next? receiver = none := by
  rw [next?, moveTo, List.getElem?_set_self']
  cases s.receivers[receiver]? <;> rfl

theorem next?_moveTo_of_ne {other : Nat} (h : other ≠ receiver) (new : Option Nat) :
    (s.moveTo other new).next? receiver = s.next? receiver := by
  rw [next?, moveTo, List.getElem?_set_ne h, next?]

/-- A new receiver begins behind what has been sent; the others stay where they are. -/
theorem next?_step_subscribe (hlive : s.live = true) (receiver : Nat) :
    (s.step .subscribe).2.next? receiver =
      if receiver = s.receivers.length then some s.sent else s.next? receiver := by
  simp only [step, hlive, if_true, next?]
  split
  · rename_i heq
    rw [heq, List.getElem?_concat_length]
    rfl
  · rename_i hne
    rcases Nat.lt_or_gt_of_ne hne with hlt | hgt
    · rw [List.getElem?_append_left hlt]
    · rw [List.getElem?_eq_none (Nat.le_of_lt hgt), List.getElem?_eq_none]
      rw [List.length_append, List.length_singleton]
      exact hgt

/-! ### What is unread -/

/-- No receiver is ahead of what has been sent. -/
def Sound (s : Shutdown) : Prop :=
  ∀ receiver next, s.next? receiver = some next → next ≤ s.sent

theorem unread_eq_some_iff (hsound : s.Sound) : s.unread receiver = some n ↔
    ∃ next, s.next? receiver = some next ∧ next + n = s.sent := by
  rw [unread, Option.map_eq_some_iff]
  refine exists_congr fun next => and_congr_right fun h => ?_
  have hle := hsound receiver next h
  omega

theorem unread_of_next? (hnext : s.next? receiver = some next) (hsent : next + n = s.sent) :
    s.unread receiver = some n := by
  rw [unread, hnext, Option.map_some, ← hsent, Nat.add_sub_cancel_left]

/-- What a receiver gets that has not read `n` signals, and how many it has not read then. -/
def reading (live : Bool) : Nat → Reply × Nat
  | 0 => (if live then .empty else .closed, 0)
  | 1 => (.notified, 0)
  | missed + 2 => (.lagged (missed + 1), 1)

theorem receive_eq (h : next + n = s.sent) : (s.receive next).1 = (reading s.live n).1 ∧
    (s.receive next).2 + (reading s.live n).2 = s.sent := by
  unfold receive
  rcases n with _ | _ | missed
  · rw [Nat.add_zero] at h
    rw [if_pos h]
    exact ⟨rfl, h⟩
  · rw [if_neg (by omega), if_pos h]
    exact ⟨rfl, rfl⟩
  · rw [if_neg (by omega), if_neg (by omega)]
    have hmissed : s.sent - 1 - next = missed + 1 := by omega
    exact ⟨by rw [hmissed]; rfl, Nat.sub_add_cancel (by omega)⟩

theorem receive_ne_triggered (s : Shutdown) (next : Nat) : (s.receive next).1 ≠ .triggered := by
  unfold receive
  split
  · cases s.live <;> simp
  · split <;> simp

/-- What is unread settles what a receiver gets. -/
theorem step_receive (hsound : s.Sound) (h : s.unread receiver = some n) :
    (s.step (.receive receiver)).1 = (reading s.live n).1 ∧
    (s.step (.receive receiver)).2.unread receiver = some (reading s.live n).2 := by
  obtain ⟨next, hnext, hsent⟩ := (unread_eq_some_iff hsound).1 h
  obtain ⟨hreply, hleft⟩ := receive_eq hsent
  simp only [step, hnext]
  exact ⟨hreply, unread_of_next? (next?_moveTo_self hnext _) hleft⟩

theorem sound_new : new.Sound := by
  intro receiver next h
  cases h

theorem Sound.step (hsound : s.Sound) (action : Action) : (s.step action).2.Sound := by
  intro receiver next h
  cases action with
  | subscribe =>
      cases hlive : s.live with
      | false =>
          simp only [Shutdown.step, hlive] at h ⊢
          exact hsound receiver next h
      | true =>
          rw [next?_step_subscribe hlive] at h
          have hsent : (s.step .subscribe).2.sent = s.sent := by
            simp only [Shutdown.step, hlive, if_true]
          rw [hsent]
          split at h
          · cases h
            exact Nat.le_refl _
          · exact hsound receiver next h
  | trigger =>
      cases hlive : s.live with
      | false =>
          simp only [Shutdown.step, hlive] at h ⊢
          exact hsound receiver next h
      | true =>
          simp only [Shutdown.step, hlive, if_true, next?_send] at h ⊢
          rw [sent_send h]
          exact Nat.le_succ_of_le (hsound receiver next h)
  | receive other =>
      cases hother : s.next? other with
      | none =>
          simp only [Shutdown.step, hother] at h ⊢
          exact hsound receiver next h
      | some old =>
          simp only [Shutdown.step, hother] at h ⊢
          by_cases heq : other = receiver
          · subst heq
            rw [next?_moveTo_self hother] at h
            cases h
            have hleft := (receive_eq (Nat.add_sub_cancel' (hsound _ _ hother))).2
            exact Nat.le.intro hleft
          · rw [next?_moveTo_of_ne heq] at h
            exact hsound receiver next h
  | drop other =>
      simp only [Shutdown.step] at h ⊢
      by_cases heq : other = receiver
      · subst heq
        rw [next?_moveTo_none] at h
        cases h
      · rw [next?_moveTo_of_ne heq] at h
        exact hsound receiver next h
  | dropShutdown => exact hsound receiver next h

theorem Sound.after (hsound : s.Sound) (actions : List Action) : (s.after actions).Sound := by
  induction actions generalizing s with
  | nil => exact hsound
  | cons action actions ih => exact ih (hsound.step action)

/-! ### The coordinator -/

theorem live_step (s : Shutdown) (action : Action) :
    (s.step action).2.live = true ↔ s.live = true ∧ action ≠ .dropShutdown := by
  cases action with
  | subscribe | trigger => cases hlive : s.live <;> simp [step, hlive, live_send]
  | receive other => simp only [step]; split <;> simp [moveTo]
  | drop other => simp [step, moveTo]
  | dropShutdown => simp [step]

/-- The coordinator exists until it is dropped. -/
theorem live_after (s : Shutdown) (actions : List Action) :
    (s.after actions).live = true ↔ s.live = true ∧ .dropShutdown ∉ actions := by
  induction actions generalizing s with
  | nil => simp [after]
  | cons action actions ih =>
      rw [after_cons, ih, live_step, List.mem_cons, not_or, and_assoc]
      exact and_congr_right fun _ => and_congr_left fun _ => ne_comm

/-! ### What a step adds to the books -/

theorem issued_cons (entry : Action × Reply) (log : Log) :
    issued (entry :: log) = issued [entry] + issued log := by
  change issued ([entry] ++ log) = _
  exact List.countP_append

theorem notified_cons (receiver : Nat) (entry : Action × Reply) (log : Log) :
    notified receiver (entry :: log) = notified receiver [entry] + notified receiver log := by
  change notified receiver ([entry] ++ log) = _
  exact List.count_append

theorem missed_cons (receiver : Nat) (entry : Action × Reply) (log : Log) :
    missed receiver (entry :: log) = missed receiver [entry] + missed receiver log := rfl

/-- What others do tells a receiver nothing. -/
theorem told_of_ne (h : action ≠ .receive receiver) (reply : Reply) :
    notified receiver [(action, reply)] = 0 ∧ missed receiver [(action, reply)] = 0 := by
  constructor
  · rw [notified, List.count_eq_zero, List.mem_singleton]
    exact fun heq => h (Prod.mk.inj heq).1.symm
  · cases action with
    | receive other =>
        have hne : other ≠ receiver := fun heq => h (heq ▸ rfl)
        cases reply <;> simp [missed, missedIn, hne]
    | subscribe | trigger | drop _ | dropShutdown => rfl

/-- A receiver moves only when it reads or is dropped. -/
theorem next?_step (h : s.next? receiver = some next) (hreceive : action ≠ .receive receiver)
    (hdrop : action ≠ .drop receiver) : (s.step action).2.next? receiver = some next := by
  cases action with
  | subscribe =>
      cases hlive : s.live with
      | false => simpa [step, hlive] using h
      | true =>
          rw [next?_step_subscribe hlive, if_neg (Nat.ne_of_lt (lt_length_of_next? h)), h]
  | trigger =>
      cases hlive : s.live with
      | false => simpa [step, hlive] using h
      | true => simpa [step, hlive, next?_send] using h
  | receive other =>
      have hne : other ≠ receiver := fun heq => hreceive (heq ▸ rfl)
      simp only [step]
      split
      · rw [next?_moveTo_of_ne hne, h]
      · exact h
  | drop other =>
      have hne : other ≠ receiver := fun heq => hdrop (heq ▸ rfl)
      simp only [step]
      rw [next?_moveTo_of_ne hne, h]
  | dropShutdown => exact h

/-- A trigger sends a signal as long as the coordinator exists, and nothing else does. -/
theorem issued_step (s : Shutdown) (action : Action) : issued [(action, (s.step action).1)] =
    if action = .trigger ∧ s.live = true then 1 else 0 := by
  cases action with
  | subscribe | trigger => cases hlive : s.live <;> simp [step, hlive, issued]
  | receive other =>
      simp only [step]
      split
      · simp [issued, receive_ne_triggered]
      · simp [issued]
  | drop other => simp [step, issued]
  | dropShutdown => simp [step, issued]

/-- As long as there is a receiver, every signal is sent. -/
theorem sent_step (h : s.next? receiver = some next) (action : Action) :
    (s.step action).2.sent = s.sent + issued [(action, (s.step action).1)] := by
  rw [issued_step]
  cases action with
  | subscribe => cases hlive : s.live <;> simp [step, hlive]
  | trigger => cases hlive : s.live <;> simp [step, hlive, sent_send h]
  | receive other => simp only [step]; split <;> simp [moveTo]
  | drop other => simp [step, moveTo]
  | dropShutdown => simp [step]

/-- A step keeps the books of every receiver that it does not drop. -/
theorem balances_step (hsound : s.Sound) (h : s.unread receiver = some n)
    (hdrop : action ≠ .drop receiver) :
    ∃ m, (s.step action).2.unread receiver = some m ∧
      n + issued [(action, (s.step action).1)] =
        notified receiver [(action, (s.step action).1)]
          + missed receiver [(action, (s.step action).1)] + m := by
  by_cases hreceive : action = .receive receiver
  · subst hreceive
    obtain ⟨hreply, hunread⟩ := step_receive hsound h
    refine ⟨_, hunread, ?_⟩
    rw [hreply]
    rcases n with _ | _ | n
    · cases hlive : s.live <;> simp [reading, issued, notified, missed, missedIn]
    · simp [reading, issued, notified, missed, missedIn]
    · simp [reading, issued, notified, missed, missedIn]
  · obtain ⟨next, hnext, hsent⟩ := (unread_eq_some_iff hsound).1 h
    obtain ⟨hnotified, hmissed⟩ := told_of_ne hreceive (s.step action).1
    refine ⟨n + issued [(action, (s.step action).1)], ?_, ?_⟩
    · apply unread_of_next? (next?_step hnext hreceive hdrop)
      rw [sent_step hnext, ← hsent, Nat.add_assoc]
    · rw [hnotified, hmissed, Nat.zero_add]

/-- So does a run. -/
theorem balances_run (hsound : s.Sound) (h : s.unread receiver = some n)
    (hdrop : .drop receiver ∉ actions) :
    ∃ m, (s.after actions).unread receiver = some m ∧
      n + issued (s.log actions) =
        notified receiver (s.log actions) + missed receiver (s.log actions) + m := by
  induction actions generalizing s n with
  | nil => exact ⟨n, h, (Nat.zero_add n).symm⟩
  | cons action actions ih =>
      rw [List.mem_cons, not_or] at hdrop
      obtain ⟨k, hk, hstep⟩ := balances_step hsound h (Ne.symm hdrop.1)
      obtain ⟨m, hm, hrest⟩ := ih (hsound.step action) hk hdrop.2
      refine ⟨m, hm, ?_⟩
      rw [log_cons, issued_cons, notified_cons, missed_cons]
      omega

/-! ### Where a receiver comes from -/

/-- There was such a receiver, and it has been dropped. -/
def Gone (s : Shutdown) (receiver : Nat) : Prop :=
  receiver < s.receivers.length ∧ s.next? receiver = none

theorem length_step (s : Shutdown) (action : Action) :
    (s.step action).2.receivers.length =
      s.receivers.length + if action = .subscribe ∧ s.live = true then 1 else 0 := by
  cases action with
  | subscribe => cases hlive : s.live <;> simp [step, hlive]
  | trigger => cases hlive : s.live <;> simp [step, hlive, receivers_send]
  | receive other => simp only [step]; split <;> simp [moveTo]
  | drop other => simp [step, moveTo]
  | dropShutdown => simp [step]

theorem Gone.step (h : s.Gone receiver) (action : Action) : (s.step action).2.Gone receiver := by
  obtain ⟨hlt, hnext⟩ := h
  refine ⟨by rw [length_step]; omega, ?_⟩
  cases action with
  | subscribe =>
      cases hlive : s.live with
      | false => simpa [Shutdown.step, hlive] using hnext
      | true => rw [next?_step_subscribe hlive, if_neg (Nat.ne_of_lt hlt), hnext]
  | trigger =>
      cases hlive : s.live with
      | false => simpa [Shutdown.step, hlive] using hnext
      | true => simpa [Shutdown.step, hlive, next?_send] using hnext
  | receive other =>
      simp only [Shutdown.step]
      split
      · rename_i old hold
        have hne : other ≠ receiver := by
          rintro rfl
          rw [hnext] at hold
          cases hold
        rw [next?_moveTo_of_ne hne, hnext]
      · exact hnext
  | drop other =>
      simp only [Shutdown.step]
      by_cases heq : other = receiver
      · rw [heq, next?_moveTo_none]
      · rw [next?_moveTo_of_ne heq, hnext]
  | dropShutdown => exact hnext

theorem Gone.after (h : s.Gone receiver) (actions : List Action) :
    (s.after actions).unread receiver = none := by
  induction actions generalizing s with
  | nil =>
      change s.unread receiver = none
      rw [unread, h.2]
      rfl
  | cons action actions ih => exact ih (h.step action)

/-- What is dropped never reads again. -/
theorem unread_after_drop (hlt : receiver < s.receivers.length) (hdrop : .drop receiver ∈ actions) :
    (s.after actions).unread receiver = none := by
  induction actions generalizing s with
  | nil => cases hdrop
  | cons action actions ih =>
      rcases List.mem_cons.1 hdrop with rfl | hdrop
      · have hgone : (s.step (.drop receiver)).2.Gone receiver :=
          ⟨by rw [length_step]; omega, next?_moveTo_none s receiver⟩
        exact hgone.after actions
      · exact ih (by rw [length_step]; omega) hdrop

/-- A receiver that can read has subscribed, and has not been dropped since. -/
theorem exists_subscription (hnew : s.receivers.length ≤ receiver)
    (h : (s.after actions).unread receiver = some n) :
    ∃ before since, actions = before ++ .subscribe :: since ∧ (s.after before).live = true ∧
      (s.after before).receivers.length = receiver ∧ .drop receiver ∉ since := by
  induction actions generalizing s with
  | nil =>
      change s.unread receiver = some n at h
      rw [unread, next?_eq_none_of_le hnew] at h
      cases h
  | cons action actions ih =>
      by_cases hlater : (s.step action).2.receivers.length ≤ receiver
      · obtain ⟨before, since, hactions, hlive, hlength, hdrop⟩ := ih hlater h
        exact ⟨action :: before, since, by rw [hactions]; rfl, hlive, hlength, hdrop⟩
      · have hlength := length_step s action
        by_cases hsubscribes : action = .subscribe ∧ s.live = true
        · rw [if_pos hsubscribes] at hlength
          obtain ⟨rfl, hlive⟩ := hsubscribes
          refine ⟨[], actions, rfl, hlive, by change s.receivers.length = receiver; omega, ?_⟩
          intro hdrop
          rw [after_cons, unread_after_drop (Nat.lt_of_not_le hlater) hdrop] at h
          cases h
        · rw [if_neg hsubscribes] at hlength
          omega

/-- A new receiver has nothing to read. -/
theorem unread_subscribe (hlive : s.live = true) :
    (s.step .subscribe).2.unread s.receivers.length = some 0 := by
  have hnext : (s.step .subscribe).2.next? s.receivers.length = some s.sent := by
    rw [next?_step_subscribe hlive, if_pos rfl]
  apply unread_of_next? hnext
  simp only [step, hlive, if_true]
  exact Nat.add_zero _

/-! ### What a receiver gets next -/

/-- What a receiver gets that has not read so many signals. -/
structure ReadsNext (s : Shutdown) (receiver unread : Nat) : Prop where
  notified_iff : (s.step (.receive receiver)).1 = .notified ↔ unread = 1
  lagged_iff : ∀ missed, (s.step (.receive receiver)).1 = .lagged missed ↔
    0 < missed ∧ unread = missed + 1
  /-- What was kept is there for it, whatever others do meanwhile. -/
  notified_after_lag : 1 < unread → ∀ between, .trigger ∉ between →
    .receive receiver ∉ between → .drop receiver ∉ between →
      (((s.step (.receive receiver)).2.after between).step (.receive receiver)).1 = .notified
  empty_iff : (s.step (.receive receiver)).1 = .empty ↔ unread = 0 ∧ s.live = true
  closed_iff : (s.step (.receive receiver)).1 = .closed ↔ unread = 0 ∧ s.live = false

/-- Nothing is told to a receiver that does not ask. -/
theorem told_of_not_mem (h : .receive receiver ∉ actions) :
    notified receiver (s.log actions) = 0 ∧ missed receiver (s.log actions) = 0 := by
  induction actions generalizing s with
  | nil => exact ⟨rfl, rfl⟩
  | cons action actions ih =>
      rw [List.mem_cons, not_or] at h
      obtain ⟨hnotified, hmissed⟩ := told_of_ne (Ne.symm h.1) (s.step action).1
      obtain ⟨hrest, hrest'⟩ := ih (s := (s.step action).2) h.2
      rw [log_cons, notified_cons, missed_cons, hnotified, hmissed, hrest, hrest']
      exact ⟨rfl, rfl⟩

theorem issued_of_not_mem (h : .trigger ∉ actions) : issued (s.log actions) = 0 := by
  induction actions generalizing s with
  | nil => rfl
  | cons action actions ih =>
      rw [List.mem_cons, not_or] at h
      rw [log_cons, issued_cons, issued_step, if_neg fun hand => h.1 hand.1.symm, ih h.2]

/-- A coordinator that still exists has sent a signal for every trigger. -/
theorem issued_of_live (h : (s.after actions).live = true) :
    issued (s.log actions) = actions.count .trigger := by
  induction actions generalizing s with
  | nil => rfl
  | cons action actions ih =>
      have hlive : s.live = true := ((live_after s _).1 h).1
      rw [log_cons, issued_cons, issued_step, ih h, List.count_cons, Nat.add_comm]
      simp [hlive]

theorem readsNext_of_unread (hsound : s.Sound) (h : s.unread receiver = some n) :
    ReadsNext s receiver n := by
  obtain ⟨hreply, hunread⟩ := step_receive hsound h
  have hlater : 1 < n → ∀ between, .trigger ∉ between →
      .receive receiver ∉ between → .drop receiver ∉ between →
      (((s.step (.receive receiver)).2.after between).step (.receive receiver)).1 = .notified := by
    intro hlag between htrigger hreceive hdrop
    have hone : (s.step (.receive receiver)).2.unread receiver = some 1 := by
      obtain ⟨missed, rfl⟩ := Nat.exists_eq_add_of_le' hlag
      exact hunread
    have hsound' := hsound.step (.receive receiver)
    obtain ⟨m, hm, hbalance⟩ := balances_run hsound' hone hdrop
    obtain ⟨hnotified, hmissed⟩ := told_of_not_mem (s := (s.step (.receive receiver)).2) hreceive
    obtain rfl : m = 1 := by
      rw [issued_of_not_mem htrigger, hnotified, hmissed] at hbalance
      omega
    exact (step_receive (hsound'.after between) hm).1
  rcases n with _ | _ | n
  · cases hlive : s.live <;> constructor <;> simp_all [reading]
  · refine ⟨by simp [hreply, reading], ?_, hlater, by simp [hreply, reading],
      by simp [hreply, reading]⟩
    intro missed
    simp only [hreply, reading, reduceCtorEq, false_iff]
    omega
  · refine ⟨by simp [hreply, reading], ?_, hlater, by simp [hreply, reading],
      by simp [hreply, reading]⟩
    intro missed
    simp only [hreply, reading, Reply.lagged.injEq]
    omega

/-- A receiver that waits goes on once there is something to read, or there will be nothing any
more. -/
theorem wakes_iff (hsound : s.Sound) (h : s.unread receiver = some n) :
    s.wakes receiver = true ↔ 0 < n ∨ s.live = false := by
  have hnext := (readsNext_of_unread hsound h).empty_iff
  rw [wakes, bne_iff_ne, ne_eq, hnext]
  cases s.live <;> simp [Nat.pos_iff_ne_zero]

/-- A receiver that has only waited goes on once there was a trigger or the coordinator is gone. -/
theorem wakes_since_iff (hsound : s.Sound) (hlive : s.live = true)
    (h : s.unread receiver = some 0) (hreceive : .receive receiver ∉ actions)
    (hdrop : .drop receiver ∉ actions) :
    (s.after actions).wakes receiver = true ↔ .trigger ∈ actions ∨ .dropShutdown ∈ actions := by
  obtain ⟨m, hm, hbalance⟩ := balances_run hsound h hdrop
  obtain ⟨hnotified, hmissed⟩ := told_of_not_mem (s := s) hreceive
  have hlater := live_after s actions
  rw [hlive] at hlater
  rw [wakes_iff (hsound.after actions) hm]
  cases hstill : (s.after actions).live with
  | false =>
      have hgone : .dropShutdown ∈ actions := by simpa [hstill] using hlater
      simp [hgone]
  | true =>
      have hthere : .dropShutdown ∉ actions := (hlater.1 hstill).2
      have hissued : m = actions.count .trigger := by
        rw [← issued_of_live hstill]
        omega
      simp [hissued, List.count_pos_iff, hthere]

/-! ### No signal is lost -/

/-- After any actions: the coordinator exists unless it was dropped.  A receiver that can read has
its books right since it subscribed, gets next what they say, and if it has read nothing so far, it
has something to wake up for exactly if there was a trigger since, or the coordinator is gone.  Who
subscribes now has nothing to read, whatever was sent before. -/
theorem no_signal_is_lost (actions : List Action) :
    ((new.after actions).live = true ↔ .dropShutdown ∉ actions) ∧
    (∀ receiver unread, (new.after actions).unread receiver = some unread →
      (∃ before since, actions = before ++ .subscribe :: since ∧
        ((new.after before).step .subscribe).1 = .subscribed receiver ∧ .drop receiver ∉ since ∧
        Balances receiver (((new.after before).step .subscribe).2.log since) unread ∧
        (.receive receiver ∉ since → ((new.after actions).wakes receiver = true ↔
          .trigger ∈ since ∨ .dropShutdown ∈ since))) ∧
      ReadsNext (new.after actions) receiver unread) ∧
    (.dropShutdown ∉ actions → ∃ receiver,
      ((new.after actions).step .subscribe).1 = .subscribed receiver ∧
      ((new.after actions).step .subscribe).2.unread receiver = some 0) := by
  have hsound := sound_new.after actions
  have hlive : (new.after actions).live = true ↔ .dropShutdown ∉ actions := by
    simp [live_after, new]
  refine ⟨hlive, ?_, ?_⟩
  · intro receiver unread hunread
    refine ⟨?_, readsNext_of_unread hsound hunread⟩
    obtain ⟨before, since, rfl, hlive, rfl, hdrop⟩ := exists_subscription (Nat.zero_le _) hunread
    have hsound' := (sound_new.after before).step .subscribe
    have hfresh := unread_subscribe hlive
    have hlive' := (live_step (new.after before) .subscribe).2 ⟨hlive, by decide⟩
    rw [after_append, after_cons] at hunread
    obtain ⟨m, hm, hbalance⟩ := balances_run hsound' hfresh hdrop
    rw [hunread] at hm
    cases hm
    refine ⟨before, since, rfl, by simp [step, hlive], hdrop, ?_, ?_⟩
    · rw [Balances, ← hbalance, Nat.zero_add]
    · intro hreceive
      rw [after_append, after_cons]
      exact wakes_since_iff hsound' hlive' hfresh hreceive hdrop
  · intro hthere
    have h := hlive.2 hthere
    exact ⟨_, by simp [step, h], unread_subscribe h⟩

/-- A receiver that lags when the coordinator is dropped is told so, gets the signal that was kept,
and only then learns that there will be no more. -/
theorem lagging_receiver_of_dropped_shutdown :
    ReadsNext (new.after [.subscribe, .trigger, .trigger, .trigger, .dropShutdown]) 0 3 ∧
    new.run [.subscribe, .trigger, .trigger, .trigger, .dropShutdown, .receive 0, .receive 0,
      .receive 0] = [.subscribed 0, .triggered, .triggered, .triggered, .dropped, .lagged 2,
      .notified, .closed] :=
  ⟨((no_signal_is_lost [.subscribe, .trigger, .trigger, .trigger, .dropShutdown]).2.1 0 3
    (by decide)).2, by decide⟩

end Gateway.Shutdown

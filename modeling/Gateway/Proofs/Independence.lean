/-
Module: Gateway.Proofs.Independence
Layer: Proofs
Purpose: Requests at one server do not get in each other's way.  A step of the traffic is a step of
  one flight, or the clock's for all of them (`Traffic.goes_of_step`), so whatever is in flight is
  where its own moves alone have brought it (`Traffic.Sound.run`).  What comes of a request is
  therefore what comes of it when it is alone at the server
  (`requests_are_independent`), and nothing in flight ever stops the clock
  (`Traffic.Sound.exists_next_instant`).
Main exports: Traffic.inFlight, Traffic.Goes, Traffic.goes_of_step, Flies, Traffic.Sound.run,
  Traffic.Sound.exists_next_instant, SameAsAlone, requests_are_independent
-/
import Mathlib.Data.List.Forall2
import Gateway.Proofs.Course
import Gateway.Server.Traffic

namespace Gateway.Server

open Endpoint (Crowd Handler Handling Invocation Race Reply)

variable {server : Server} {t u : Traffic} {f : Flight} {r s : Race}

/-! ### Steps of the traffic -/

/-- The flights, each with its race. -/
def Traffic.inFlight (t : Traffic) : List (Flight × Race) :=
  t.flights.zip t.crowd.races

/-- There is a race for each flight. -/
def Traffic.Paired (t : Traffic) : Prop :=
  t.flights.length = t.crowd.races.length

/-- A flight at its start. -/
def flightAt (start : Instant) (visit : Visit) (handler : Handler)
    (forwarded : Pipeline.Request) : Flight :=
  ⟨visit, start, handler, forwarded, []⟩

/-- The race of a flight at its start. -/
def Flight.race (f : Flight) : Race :=
  .ofInvocation f.invocation

/-- Everything that a step of the traffic can do. -/
inductive Traffic.Goes (server : Server) (t u : Traffic) : Prop where
  | reaches (visit : Visit) (handler : Handler) (forwarded : Pipeline.Request) :
      server.reach visit = some (handler, forwarded) →
      u.inFlight = t.inFlight ++ [(flightAt t.crowd.now visit handler forwarded,
        (flightAt t.crowd.now visit handler forwarded).race)] →
      u.dismissals = t.dismissals → u.entries = t.entries → u.crowd.now = t.crowd.now →
      Goes server t u
  | dismisses (visit : Visit) : server.reach visit = none → u.inFlight = t.inFlight →
      u.dismissals = t.dismissals ++
        [⟨visit, t.crowd.now, server.handle t.crowd.now visit⟩] →
      u.entries = t.entries ++ (server.handle t.crowd.now visit).journal.map (·.entry) →
      u.crowd.now = t.crowd.now → Goes server t u
  | moves (before after : List (Flight × Race)) (f : Flight) (r s : Race) (move : Race.Move) :
      t.inFlight = before ++ (f, r) :: after → move ≠ .tick →
      r.permits f.leaves move = true → r.step move = some s →
      u.inFlight = before ++ (f.after move, s) :: after → u.dismissals = t.dismissals →
      u.entries = t.entries ++ f.news r s → u.crowd.now = t.crowd.now → Goes server t u
  | ticks : List.Forall₂ (fun p q => p.2.permits p.1.leaves .tick = true ∧
        p.2.step .tick = some q.2 ∧ q.1 = p.1.after .tick) t.inFlight u.inFlight →
      u.dismissals = t.dismissals → u.entries = t.entries → u.crowd.now = t.crowd.now + 1 →
      Goes server t u

theorem forall₂_of_mapM {α β : Type} {step : α → Option β} {before : List α} {after : List β}
    (h : before.mapM step = some after) : List.Forall₂ (step · = some ·) before after := by
  induction before generalizing after with
  | nil => cases h; exact .nil
  | cons a rest ih =>
      simp only [List.mapM_cons, Option.pure_def, Option.bind_eq_bind, Option.bind_eq_some_iff,
        Option.some.injEq] at h
      obtain ⟨b, hb, bs, hbs, rfl⟩ := h
      exact .cons hb (ih hbs)

theorem exists_mapM {α β : Type} {step : α → Option β} {l : List α}
    (h : ∀ a ∈ l, ∃ b, step a = some b) : ∃ bs, l.mapM step = some bs := by
  induction l with
  | nil => exact ⟨[], rfl⟩
  | cons a rest ih =>
      obtain ⟨b, hb⟩ := h a List.mem_cons_self
      obtain ⟨bs, hbs⟩ := ih fun a ha => h a (List.mem_cons_of_mem _ ha)
      exact ⟨b :: bs, by simp [List.mapM_cons, hb, hbs]⟩

theorem zip_set {α β : Type} (as : List α) (bs : List β) (i : Nat) (a : α) (b : β) :
    (as.set i a).zip (bs.set i b) = (as.zip bs).set i (a, b) := by
  induction as generalizing bs i with
  | nil => cases i <;> simp
  | cons a' as ih =>
      cases bs with
      | nil => cases i <;> simp
      | cons b' bs =>
          cases i with
          | zero => rfl
          | succ i => simp [ih]

/-- Replacing what stands at a place leaves what stands before and after it. -/
theorem exists_split_of_getElem? {α : Type} {l : List α} {i : Nat} {a : α} (h : l[i]? = some a)
    (b : α) : ∃ before after, l = before ++ a :: after ∧ l.set i b = before ++ b :: after ∧
      before.length = i := by
  obtain ⟨hlt, rfl⟩ := List.getElem?_eq_some_iff.1 h
  obtain ⟨before, after, hl, hlen, hset⟩ := List.exists_of_set hlt
  exact ⟨before, after, hl, hset, hlen⟩

theorem Traffic.goes_of_arrive (h : t.Paired) {visit : Visit}
    (hstep : t.arrive server visit = some u) : u.Paired ∧ t.Goes server u := by
  unfold Traffic.arrive at hstep
  split at hstep
  · rename_i handler forwarded hreach
    cases hstep
    refine ⟨by simpa [Paired] using h, .reaches visit handler forwarded hreach ?_ rfl rfl rfl⟩
    exact List.zip_append h
  · rename_i hreach
    cases hstep
    exact ⟨h, .dismisses visit hreach rfl rfl rfl rfl⟩

theorem crowd_step_within {c d : Crowd} {index : Nat} {move : Race.Move} {r : Race}
    (hr : c.races[index]? = some r) : c.step (.within index move) = some d ↔ move ≠ .tick ∧
      ∃ s, r.step move = some s ∧ d = { c with races := c.races.set index s } := by
  rw [Crowd.step]
  by_cases hmove : move = .tick
  · simp [hmove]
  · simp only [hmove, if_false, hr, Option.bind_eq_bind, Option.bind_some,
      Option.bind_eq_some_iff, Option.pure_def, Option.some.injEq, ne_eq, not_false_eq_true,
      true_and]
    exact exists_congr fun s => and_congr_right fun _ => eq_comm

/-- The traffic after a move in one of the flights. -/
def Traffic.moved (t : Traffic) (index : Nat) (f : Flight) (move : Race.Move) (r s : Race) :
    Traffic :=
  { t with
    crowd := { t.crowd with races := t.crowd.races.set index s }
    flights := t.flights.set index (f.after move)
    entries := t.entries ++ f.news r s }

theorem Traffic.moveWithin_eq_some_iff {index : Nat} {move : Race.Move} :
    t.moveWithin index move = some u ↔ ∃ f r s, t.inFlight[index]? = some (f, r) ∧
      r.permits f.leaves move = true ∧ move ≠ .tick ∧ r.step move = some s ∧
      u = t.moved index f move r s := by
  simp only [moveWithin, Option.bind_eq_bind, Option.bind_eq_some_iff, inFlight,
    List.getElem?_zip_eq_some]
  constructor
  · rintro ⟨f, hf, r, hr, hstep⟩
    split at hstep
    · rename_i hpermits
      obtain ⟨crowd, hcrowd, hstep⟩ := Option.bind_eq_some_iff.1 hstep
      obtain ⟨moved, hmoved, hu⟩ := Option.bind_eq_some_iff.1 hstep
      obtain ⟨hmove, s, hs, rfl⟩ := (crowd_step_within hr).1 hcrowd
      obtain ⟨hlt, _⟩ := List.getElem?_eq_some_iff.1 hr
      obtain rfl : s = moved := by simpa [List.getElem?_set_self hlt] using hmoved
      cases hu
      exact ⟨f, r, s, ⟨hf, hr⟩, hpermits, hmove, hs, rfl⟩
    · cases hstep
  · rintro ⟨f, r, s, ⟨hf, hr⟩, hpermits, hmove, hs, rfl⟩
    obtain ⟨hlt, _⟩ := List.getElem?_eq_some_iff.1 hr
    have hcrowd := (crowd_step_within hr).2 ⟨hmove, s, hs, rfl⟩
    refine ⟨f, hf, r, hr, ?_⟩
    rw [if_pos hpermits, hcrowd]
    simp [List.getElem?_set_self hlt, moved]

/-- A move in one flight is none in any other. -/
theorem Traffic.inFlight_moved (t : Traffic) (index : Nat) (f : Flight) (move : Race.Move)
    (r s : Race) :
    (t.moved index f move r s).inFlight = t.inFlight.set index (f.after move, s) :=
  zip_set t.flights t.crowd.races index (f.after move) s

theorem Traffic.goes_of_moveWithin (h : t.Paired) {index : Nat} {move : Race.Move}
    (hstep : t.moveWithin index move = some u) : u.Paired ∧ t.Goes server u := by
  obtain ⟨f, r, s, hpair, hpermits, hmove, hs, rfl⟩ := moveWithin_eq_some_iff.1 hstep
  obtain ⟨before, after, hbefore, hafter, _⟩ := exists_split_of_getElem? hpair (f.after move, s)
  refine ⟨by simpa [Paired, moved] using h,
    .moves before after f r s move hbefore hmove hpermits hs ?_ rfl rfl rfl⟩
  rw [inFlight_moved, hafter]

theorem ticks_zip (flights : List Flight) {before after : List Race}
    (hticks : List.Forall₂ (fun r s => r.step .tick = some s) before after)
    (hpermits : ∀ p ∈ flights.zip before, p.2.permits p.1.leaves .tick = true) :
    List.Forall₂ (fun p q => p.2.permits p.1.leaves .tick = true ∧ p.2.step .tick = some q.2 ∧
      q.1 = p.1.after .tick) (flights.zip before) ((flights.map (·.after .tick)).zip after) := by
  induction flights generalizing before after with
  | nil => exact .nil
  | cons f flights ih =>
      cases hticks with
      | nil => exact .nil
      | cons hstep hrest =>
          refine .cons ⟨hpermits _ List.mem_cons_self, hstep, rfl⟩ (ih hrest ?_)
          exact fun p hp => hpermits p (List.mem_cons_of_mem _ hp)

theorem Traffic.goes_of_tick (h : t.Paired) (hstep : t.tick = some u) :
    u.Paired ∧ t.Goes server u := by
  rw [Traffic.tick] at hstep
  split at hstep
  · rename_i hpermits
    simp only [Crowd.step, Option.bind_eq_bind, Option.map_eq_some_iff, Option.bind_eq_some_iff,
      Option.pure_def, Option.some.injEq] at hstep
    obtain ⟨crowd, ⟨races, hraces, rfl⟩, rfl⟩ := hstep
    have hticks := forall₂_of_mapM hraces
    refine ⟨?_, .ticks ?_ rfl rfl rfl⟩
    · simpa [Paired, ← hticks.length_eq] using h
    · exact ticks_zip t.flights hticks fun p hp => List.all_eq_true.1 hpermits p hp
  · cases hstep

theorem Traffic.goes_of_step (h : t.Paired) {move : Move} (hstep : t.step server move = some u) :
    u.Paired ∧ t.Goes server u := by
  cases move with
  | arrive visit => exact goes_of_arrive h hstep
  | within index move => exact goes_of_moveWithin h hstep
  | tick => exact goes_of_tick h hstep

/-! ### Where a flight is -/

/-- A flight is where its own moves have brought it. -/
structure Flies (server : Server) (now : Instant) (f : Flight) (r : Race) : Prop where
  reached : server.reach f.visit = some (f.handler, f.forwarded)
  started : f.start ≤ now
  now_eq : r.now = now
  course : f.race.course f.leaves f.history = some r

theorem Race.now_of_step {r s : Race} {move : Race.Move} (hstep : r.step move = some s)
    (hmove : move ≠ .tick) : s.now = r.now := by
  cases move with
  | task followsEnd => exact (Race.task_frame hstep).1
  | look =>
      obtain ⟨_, _, _, rfl⟩ := Race.look_inv hstep
      rfl
  | leave =>
      obtain ⟨_, rfl⟩ := Race.leave_inv hstep
      rfl
  | tick => exact absurd rfl hmove

theorem Flies.begin {visit : Visit} {handler : Handler} {forwarded : Pipeline.Request}
    (h : server.reach visit = some (handler, forwarded)) (now : Instant) :
    Flies server now (flightAt now visit handler forwarded)
      (flightAt now visit handler forwarded).race where
  reached := h
  started := Nat.le_refl now
  now_eq := rfl
  course := by rw [flightAt, Race.course]

theorem Flies.move {now : Instant} (h : Flies server now f r) {move : Race.Move}
    (hpermits : r.permits f.leaves move = true) (hstep : r.step move = some s) :
    Flies server s.now (f.after move) s where
  reached := h.reached
  started := by
    by_cases hmove : move = .tick
    · subst hmove
      rw [(Race.tick_inv hstep).1]
      exact Nat.le_succ_of_le (h.now_eq ▸ h.started)
    · rw [Race.now_of_step hstep hmove, h.now_eq]
      exact h.started
  now_eq := rfl
  course := by
    have hlast : r.course f.leaves [move] = some s := by
      rw [Race.course, if_pos hpermits, hstep]
      rfl
    change f.race.course f.leaves (f.history ++ [move]) = some s
    rw [Race.course_append, h.course]
    exact hlast

/-- Every flight is where its own moves have brought it, and every other visit was answered as it is
when it comes alone. -/
structure Traffic.Sound (server : Server) (t : Traffic) : Prop where
  paired : t.Paired
  flying : ∀ p ∈ t.inFlight, Flies server t.crowd.now p.1 p.2
  dismissed : ∀ d ∈ t.dismissals, server.reach d.visit = none ∧
    d.handling = server.handle d.start d.visit

theorem Traffic.Sound.begin (server : Server) (start : Instant) :
    Sound server (Traffic.begin start) where
  paired := rfl
  flying := by simp [Traffic.inFlight, Traffic.begin]
  dismissed := by simp [Traffic.begin]

theorem exists_of_forall₂_right {α β : Type} {R : α → β → Prop} {as : List α} {bs : List β}
    (h : List.Forall₂ R as bs) {b : β} (hb : b ∈ bs) : ∃ a ∈ as, R a b := by
  induction h with
  | nil => cases hb
  | cons hr _ ih =>
      rcases List.mem_cons.1 hb with rfl | hb
      · exact ⟨_, List.mem_cons_self, hr⟩
      · obtain ⟨a, ha, hab⟩ := ih hb
        exact ⟨a, List.mem_cons_of_mem _ ha, hab⟩

theorem Traffic.Sound.step (h : t.Sound server) {move : Move}
    (hstep : t.step server move = some u) : u.Sound server := by
  obtain ⟨hpaired, hgoes⟩ := goes_of_step h.paired hstep
  cases hgoes with
  | reaches visit handler forwarded hreach hflights hdismissals _ hnow =>
      refine ⟨hpaired, ?_, hdismissals ▸ h.dismissed⟩
      rw [hflights, hnow]
      intro p hp
      rcases List.mem_append.1 hp with hp | hp
      · exact h.flying p hp
      · obtain rfl := List.mem_singleton.1 hp
        exact .begin hreach t.crowd.now
  | dismisses visit hreach hflights hdismissals _ hnow =>
      refine ⟨hpaired, by rw [hflights, hnow]; exact h.flying, ?_⟩
      rw [hdismissals]
      intro d hd
      rcases List.mem_append.1 hd with hd | hd
      · exact h.dismissed d hd
      · obtain rfl := List.mem_singleton.1 hd
        exact ⟨hreach, rfl⟩
  | moves before after f r s move hsplit hmove hpermits hmoved hflights hdismissals _ hnow =>
      refine ⟨hpaired, ?_, hdismissals ▸ h.dismissed⟩
      have hflying := h.flying
      rw [hsplit] at hflying
      rw [hflights, hnow]
      intro p hp
      rcases List.mem_append.1 hp with hp | hp
      · exact hflying p (List.mem_append_left _ hp)
      · rcases List.mem_cons.1 hp with rfl | hp
        · have hmoves := (hflying (f, r) (by simp)).move hpermits hmoved
          rwa [Race.now_of_step hmoved hmove, (hflying (f, r) (by simp)).now_eq] at hmoves
        · exact hflying p (List.mem_append_right _ (List.mem_cons_of_mem _ hp))
  | ticks hticks hdismissals _ hnow =>
      refine ⟨hpaired, ?_, hdismissals ▸ h.dismissed⟩
      rw [hnow]
      intro q hq
      obtain ⟨p, hp, hpermits, hticked, hafter⟩ := exists_of_forall₂_right hticks hq
      have hflies := h.flying p hp
      have hmoves := hflies.move hpermits hticked
      have hlater : q.2.now = t.crowd.now + 1 := by
        rw [(Race.tick_inv hticked).1, ← hflies.now_eq]
      rwa [hlater, ← hafter] at hmoves

theorem Traffic.Sound.run (h : t.Sound server) {moves : List Move}
    (hrun : t.run server moves = some u) : u.Sound server := by
  induction moves generalizing t with
  | nil => cases hrun; exact h
  | cons move moves ih =>
      obtain ⟨v, hstep, hrest⟩ := Option.bind_eq_some_iff.1 hrun
      exact ih (h.step hstep) hrest

/-! ### A request alone at the server -/

/-- When a client gets its reply, if it does. -/
def instantOf : Reply → Option Instant
  | .answered instant _ => some instant
  | .abandoned instant => some instant
  | .unending => none

/-- The notes that a pipeline leaves, each with its instant. -/
def notesOf (handling : Handling) : List (Instant × String) :=
  handling.journal.filterMap fun e =>
    match e.entry with
    | .note _ label => some (e.stamp.instant, label)
    | _ => none

theorem reach_eq_some_iff {visit : Visit} {handler : Handler} {forwarded : Pipeline.Request} :
    server.reach visit = some (handler, forwarded) ↔
      server.router.find? visit.request.uri.path = some handler ∧
      handler.receive visit.identified = .ok forwarded := by
  unfold reach
  split
  · rename_i hnone
    simp [hnone]
  · rename_i found hfound
    cases hreceive : found.receive visit.identified with
    | error rejection =>
        simp only [hfound, reduceCtorEq, Option.some.injEq, false_iff, not_and]
        rintro rfl
        simp [hreceive]
    | ok request =>
        simp only [hfound, Option.some.injEq, Prod.mk.injEq]
        constructor
        · rintro ⟨rfl, rfl⟩
          exact ⟨rfl, hreceive⟩
        · rintro ⟨rfl, h⟩
          rw [hreceive] at h
          cases h
          exact ⟨rfl, rfl⟩

variable {now : Instant}

/-- A request in flight is handled, when it is alone, as its invocation concludes. -/
theorem Flies.handle_eq (h : Flies server now f r) :
    server.handle f.start f.visit =
      { reply := deliver f.visit
          (f.handler.conclude f.visit.identified.method f.invocation.conclusion).reply
        journal :=
          (f.handler.conclude f.visit.identified.method f.invocation.conclusion).journal ++
            Handler.pipelineJournal f.forwarded.path f.invocation } := by
  obtain ⟨hfind, hreceive⟩ := reach_eq_some_iff.1 h.reached
  simp only [Server.handle, hfind, Handler.handle, hreceive]
  rfl

theorem notesOf_append (reply : Reply) (before after : List Journal.Stamped) :
    notesOf ⟨reply, before ++ after⟩ = notesOf ⟨reply, before⟩ ++ notesOf ⟨reply, after⟩ :=
  List.filterMap_append

theorem notesOf_conclude (handler : Handler) (method : Http.Method)
    (conclusion : Endpoint.Conclusion) (reply : Reply) :
    notesOf ⟨reply, (handler.conclude method conclusion).journal⟩ = [] := by
  cases conclusion with
  | ended instant outcome =>
      simp [notesOf, Handler.conclude, List.filterMap_map, Function.comp_def]
  | abandoned | unending => rfl

theorem notesOf_pipelineJournal (path : String) (inv : Invocation) (reply : Reply) :
    notesOf ⟨reply, Handler.pipelineJournal path inv⟩ = inv.trace.notes := by
  have hnotes : notesOf ⟨reply, inv.trace.notes.map fun note =>
      ⟨⟨note.1, .pipeline⟩, .note path note.2⟩⟩ = inv.trace.notes := by
    simp [notesOf, List.filterMap_map]
  rw [Handler.pipelineJournal, notesOf_append, hnotes]
  split <;> exact List.append_nil _

/-- Only the pipeline leaves notes. -/
theorem Flies.notesOf_handle (h : Flies server now f r) :
    notesOf (server.handle f.start f.visit) = f.invocation.trace.notes := by
  rw [h.handle_eq, notesOf_append, notesOf_conclude, notesOf_pipelineJournal, List.nil_append]

theorem Flies.instantOf_handle (h : Flies server now f r) :
    instantOf (server.handle f.start f.visit).reply = Race.instantOf f.invocation.conclusion := by
  rw [h.handle_eq]
  cases f.invocation.conclusion <;> rfl

/-- The wait of a flight can only end after its start. -/
theorem Flight.start_le_stop (f : Flight) {stop : Instant} (h : f.invocation.stop = some stop) :
    f.invocation.start ≤ stop := by
  rcases Pipeline.mem_of_sooner h with hd | hl
  · obtain ⟨d, hd', rfl⟩ := Option.map_eq_some_iff.1 hd
    have hscope : f.invocation.scope = .ofTimeout f.start f.handler.timeout := rfl
    rw [hscope, Scope.ofTimeout] at hd'
    split at hd'
    · cases hd'
    · cases hd'
      exact Nat.le_trans (Nat.le_add_right _ _) (le_roundUp _)
  · obtain ⟨patience, _, rfl⟩ := Option.map_eq_some_iff.1 hl
    exact Nat.le_add_right _ _

/-- Whatever else happens at the server: what has come of a request so far is what comes of it when
it is alone there, and it is not late. -/
structure SameAsAlone (server : Server) (now : Instant) (f : Flight) (r : Race) : Prop where
  reply_eq : ∀ {reply}, f.reply? r = some reply →
    reply = (server.handle f.start f.visit).reply
  prompt : f.reply? r = none → ∀ {instant},
    instantOf (server.handle f.start f.visit).reply = some instant → now ≤ instant
  /-- What its pipeline has observed so far, and the rest is not yet due. -/
  notes_eq : ∃ rest, notesOf (server.handle f.start f.visit) = r.notes ++ rest ∧
    (∀ note ∈ rest, now ≤ note.1) ∧ (r.task = none → rest = [])

theorem Flies.sameAsAlone (h : Flies server now f r)
    (horderly : f.race.Orderly f.leaves f.history) : SameAsAlone server now f r := by
  have hfollows : Race.Follows f.invocation r :=
    (Race.Follows.ofInvocation f.invocation fun _ => f.start_le_stop).of_course h.course horderly
  have hnow := h.now_eq
  subst hnow
  constructor
  · intro reply hreply
    simp only [Flight.reply?, Flight.handling?, Option.map_map, Option.map_eq_some_iff] at hreply
    obtain ⟨conclusion, hover, rfl⟩ := hreply
    rw [h.handle_eq, ← hfollows.conclusion_eq hover]
    rfl
  · intro hwaits instant hinstant
    have hw : r.waiter = .waiting := by
      simp only [Flight.reply?, Flight.handling?, Option.map_eq_none_iff] at hwaits
      exact Race.waiting_of_conclusion?_eq_none hwaits
    rw [h.instantOf_handle] at hinstant
    exact hfollows.now_le hw hinstant
  · rw [h.notesOf_handle]
    exact hfollows.notes

/-! ### The clock goes on -/

theorem Traffic.run_append (t : Traffic) (before after : List Move) :
    t.run server (before ++ after) = (t.run server before).bind (·.run server after) := by
  induction before generalizing t with
  | nil => rfl
  | cons move moves ih =>
      simp only [List.cons_append, run, ih]
      cases t.step server move <;> rfl

/-- Moves of the flights lead from one traffic to another, without arrivals and within the
instant. -/
def Traffic.Settles (server : Server) (t u : Traffic) : Prop :=
  ∃ moves, (∀ move ∈ moves, ∃ index inner, move = .within index inner) ∧
    t.run server moves = some u

theorem Traffic.Settles.refl (server : Server) (t : Traffic) : t.Settles server t :=
  ⟨[], nofun, rfl⟩

theorem Traffic.Settles.trans {v : Traffic} (h : t.Settles server u) (h' : u.Settles server v) :
    t.Settles server v := by
  obtain ⟨before, hb, hrun⟩ := h
  obtain ⟨after, ha, hrun'⟩ := h'
  refine ⟨before ++ after, ?_, ?_⟩
  · intro move hmove
    exact (List.mem_append.1 hmove).elim (hb move) (ha move)
  · rw [run_append, hrun]
    exact hrun'

/-- What a flight can do alone it can do among others. -/
theorem Traffic.settles_of_course (server : Server) (h : t.Paired)
    {before after : List (Flight × Race)} (hsplit : t.inFlight = before ++ (f, r) :: after)
    {moves : List Race.Move} (hmoves : Race.Move.tick ∉ moves)
    (hcourse : r.course f.leaves moves = some s) :
    ∃ u g, t.Settles server u ∧ u.Paired ∧ u.crowd.now = t.crowd.now ∧ g.leaves = f.leaves ∧
      u.inFlight = before ++ (g, s) :: after := by
  induction moves generalizing t f r with
  | nil =>
      cases hcourse
      exact ⟨t, f, .refl server t, h, rfl, rfl, hsplit⟩
  | cons move moves ih =>
      obtain ⟨hpermits, r', hstep, hrest⟩ := Race.course_cons hcourse
      have hpair : t.inFlight[before.length]? = some (f, r) := by simp [hsplit]
      have hmove : move ≠ .tick := fun heq => hmoves (by simp [heq])
      have hmoved : t.step server (.within before.length move) =
          some (t.moved before.length f move r r') :=
        moveWithin_eq_some_iff.2 ⟨f, r, r', hpair, hpermits, hmove, hstep, rfl⟩
      have hsplit' : (t.moved before.length f move r r').inFlight =
          before ++ (f.after move, r') :: after := by
        rw [inFlight_moved, hsplit]
        simp
      obtain ⟨u, g, hsettles, hpaired, hnow, hleaves, hu⟩ :=
        ih (goes_of_step h hmoved).1 hsplit' (fun hm => hmoves (List.mem_cons_of_mem _ hm)) hrest
      have hfirst : t.Settles server (t.moved before.length f move r r') :=
        ⟨[.within before.length move], by simp, by simp [run, hmoved]⟩
      exact ⟨u, g, hfirst.trans hsettles, hpaired, hnow, hleaves, hu⟩

/-- One after the other, all flights come to where they do not hold up the clock. -/
theorem Traffic.exists_all_ready (server : Server) (h : t.Paired)
    {before after : List (Flight × Race)} (hsplit : t.inFlight = before ++ after)
    (hbefore : ∀ p ∈ before, p.2.Ready p.1.leaves) :
    ∃ u, t.Settles server u ∧ u.Paired ∧ u.crowd.now = t.crowd.now ∧
      ∀ p ∈ u.inFlight, p.2.Ready p.1.leaves := by
  induction after generalizing t before with
  | nil =>
      rw [List.append_nil] at hsplit
      exact ⟨t, .refl server t, h, rfl, hsplit ▸ hbefore⟩
  | cons p after ih =>
      obtain ⟨f, r⟩ := p
      obtain ⟨s, ⟨moves, hmoves, hcourse⟩, _, hready⟩ := Race.exists_ready f.leaves r
      obtain ⟨u, g, hsettles, hpaired, hnow, hleaves, hu⟩ :=
        settles_of_course server h hsplit hmoves hcourse
      have hsplit' : u.inFlight = (before ++ [(g, s)]) ++ after := by simp [hu]
      have hbefore' : ∀ p ∈ before ++ [(g, s)], p.2.Ready p.1.leaves := by
        intro p hp
        rcases List.mem_append.1 hp with hp | hp
        · exact hbefore p hp
        · obtain rfl := List.mem_singleton.1 hp
          rw [hleaves]
          exact hready
      obtain ⟨v, hsettles', hpaired', hnow', hall⟩ := ih hpaired hsplit' hbefore'
      exact ⟨v, hsettles.trans hsettles', hpaired', hnow'.trans hnow, hall⟩

theorem Traffic.exists_tick (server : Server) (h : t.Paired)
    (hready : ∀ p ∈ t.inFlight, p.2.Ready p.1.leaves) :
    ∃ u, t.step server .tick = some u ∧ u.crowd.now = t.crowd.now + 1 := by
  have hall : ∀ p ∈ t.flights.zip t.crowd.races, p.2.permits p.1.leaves .tick = true :=
    fun p hp => (hready p hp).permits
  have hticks : ∀ r ∈ t.crowd.races, ∃ s, r.step .tick = some s := by
    intro r hr
    have hsnd : t.inFlight.map Prod.snd = t.crowd.races := List.map_snd_zip (Nat.le_of_eq h.symm)
    rw [← hsnd] at hr
    obtain ⟨p, hp, rfl⟩ := List.mem_map.1 hr
    exact ⟨_, (hready p hp).step⟩
  obtain ⟨races, hraces⟩ := exists_mapM hticks
  refine ⟨{ t with
    crowd := ⟨t.crowd.now + 1, races⟩
    flights := t.flights.map (·.after .tick) }, ?_, rfl⟩
  rw [step, Traffic.tick, if_pos (List.all_eq_true.2 hall), Crowd.step, hraces]
  rfl

/-- Nothing in flight holds up the clock for ever. -/
theorem Traffic.exists_next_instant (server : Server) (h : t.Paired) :
    ∃ moves u, (∀ visit, .arrive visit ∉ moves) ∧ t.run server moves = some u ∧
      u.crowd.now = t.crowd.now + 1 := by
  obtain ⟨u, ⟨moves, hmoves, hrun⟩, hpaired, hnow, hready⟩ :=
    exists_all_ready server h (List.nil_append _).symm (by simp)
  obtain ⟨v, htick, hnow'⟩ := exists_tick server hpaired hready
  refine ⟨moves ++ [.tick], v, ?_, ?_, by rw [hnow', hnow]⟩
  · intro visit hmem
    rcases List.mem_append.1 hmem with hmem | hmem
    · obtain ⟨index, inner, heq⟩ := hmoves _ hmem
      cases heq
    · simp at hmem
  · rw [run_append, hrun]
    simp [run, htick]

/-! ### Independence -/

/-- Requests that are at a server at the same time, in whatever order they and their pipelines and
clients move.  Each is where its own moves alone bring it; if no two things are due for it at once,
or if it keeps to the order of the clock when they are, then its reply, the instant of its reply and
the notes of its pipeline are those of the same request alone at the server.  A move in one flight
is none in any other, and nothing in flight holds up the clock. -/
theorem requests_are_independent (server : Server) (start : Instant) (moves : List Traffic.Move)
    (t : Traffic) (hrun : (Traffic.begin start).run server moves = some t) :
    (∀ p ∈ t.inFlight, p.1.race.course p.1.leaves p.1.history = some p.2 ∧
      (p.1.race.Untied p.1.leaves ∨ p.1.race.Orderly p.1.leaves p.1.history →
        SameAsAlone server t.crowd.now p.1 p.2)) ∧
    (∀ d ∈ t.dismissals, d.handling = server.handle d.start d.visit) ∧
    (∀ index move u, t.step server (.within index move) = some u →
      ∀ other, other ≠ index → u.inFlight[other]? = t.inFlight[other]?) ∧
    ∃ later u, (∀ visit, .arrive visit ∉ later) ∧ t.run server later = some u ∧
      u.crowd.now = t.crowd.now + 1 := by
  have hsound := (Traffic.Sound.begin server start).run hrun
  refine ⟨?_, ?_, ?_, Traffic.exists_next_instant server hsound.paired⟩
  · intro p hp
    have hflies := hsound.flying p hp
    refine ⟨hflies.course, ?_⟩
    rintro (huntied | horderly)
    · exact hflies.sameAsAlone (huntied.orderly hflies.course)
    · exact hflies.sameAsAlone horderly
  · exact fun d hd => (hsound.dismissed d hd).2
  · intro index move u hstep other hother
    obtain ⟨f, r, s, _, _, _, _, rfl⟩ := Traffic.moveWithin_eq_some_iff.1 hstep
    rw [Traffic.inFlight_moved, List.getElem?_set_ne hother.symm]

/-- There is no deadline, and the pipeline has nothing left to do but to answer. -/
structure Answering (answer : Pipeline.Answer) (r : Race) : Prop where
  task_eq : r.task = none ∨ r.task = some (.answer answer)
  deadline_eq : r.deadline = none

theorem Answering.step {answer : Pipeline.Answer} (h : Answering answer r) {move : Race.Move}
    (hstep : r.step move = some s) : Answering answer s := by
  cases move with
  | task followsEnd =>
      refine ⟨?_, (Race.task_frame hstep).2.2.trans h.deadline_eq⟩
      rcases h.task_eq with htask | htask <;> rw [Race.step, htask] at hstep
      · cases hstep
      · left
        simp only [Option.bind_some, Race.stepTask] at hstep
        split at hstep <;> cases hstep <;> rfl
  | look =>
      obtain ⟨_, _, _, rfl⟩ := Race.look_inv hstep
      exact ⟨h.task_eq, h.deadline_eq⟩
  | leave =>
      obtain ⟨_, rfl⟩ := Race.leave_inv hstep
      exact ⟨h.task_eq, h.deadline_eq⟩
  | tick =>
      obtain ⟨rfl, _⟩ := Race.tick_inv hstep
      exact ⟨h.task_eq, h.deadline_eq⟩

theorem Answering.not_tied {answer : Pipeline.Answer} (h : Answering answer r) :
    ¬ r.Tied none := by
  have hexpired : r.scope.expired r.now ≠ true := by
    rw [ne_eq, Race.expired_iff]
    rintro ⟨d, hd, _⟩
    rw [h.deadline_eq] at hd
    cases hd
  intro htied
  cases htied with
  | deadlineAndLeave _ hexp _ | deadlineAndTask _ hexp _ => exact hexpired hexp
  | leaveAndTask _ hleaves => cases hleaves
  | wakingAndEnd hboth =>
      obtain ⟨_, _, _, htask, _⟩ := hboth
      rcases h.task_eq with hnone | hanswer
      · rw [hnone] at htask
        cases htask
      · rw [hanswer] at htask
        cases htask

/-- Without a deadline, and for a client that stays, a pipeline that answers at once ties nothing.
-/
theorem Answering.untied {answer : Pipeline.Answer} (h : Answering answer r) : r.Untied none := by
  intro moves s hcourse
  induction moves generalizing r with
  | nil =>
      cases hcourse
      exact h.not_tied
  | cons move moves ih =>
      obtain ⟨_, t, hstep, hrest⟩ := Race.course_cons hcourse
      exact ih (h.step hstep) hrest

/-- An endpoint whose pipeline answers nothing within its timeout. -/
def stuckHandler : Handler where
  endpoint := { endpoint := "/s", timeoutMs := 1 }
  maxBodySize := 0
  pipeline := fun _ => .stall

/-- An endpoint whose pipeline answers at once. -/
def idleHandler : Handler where
  endpoint := { endpoint := "/i" }
  maxBodySize := 0
  pipeline := Pipeline.idle

/-- A server with both endpoints. -/
def pairServer : Server where
  config := { endpoints := [stuckHandler.endpoint, idleHandler.endpoint] }
  router := ⟨[([.char '/', .char 's'], stuckHandler), ([.char '/', .char 'i'], idleHandler)]⟩

/-- A visit to a path, for a client that stays. -/
def visitTo (path : String) : Visit where
  request := ⟨.get, { (default : Http.Uri) with path }, [], []⟩
  freshId := ⟨[], by decide⟩

theorem reach_pairServer :
    (∃ forwarded, pairServer.reach (visitTo "/s") = some (stuckHandler, forwarded)) ∧
    ∃ forwarded, pairServer.reach (visitTo "/i") = some (idleHandler, forwarded) := by
  constructor
  · refine ⟨_, reach_eq_some_iff.2 ⟨?_, rfl⟩⟩
    simp [pairServer, visitTo, Route.Router.find?, Route.Branches.follow, Route.Branches.after,
      Route.Branches.here?, Route.inSegment]
  · refine ⟨_, reach_eq_some_iff.2 ⟨?_, rfl⟩⟩
    simp [pairServer, visitTo, Route.Router.find?, Route.Branches.follow, Route.Branches.after,
      Route.Branches.here?, Route.inSegment]

theorem answering_idle (h : f.handler = idleHandler) : Answering (.ok none) f.race where
  task_eq := by
    have htask : f.race.task = some (f.handler.pipeline f.forwarded) := rfl
    rw [htask, h]
    exact Or.inr rfl
  deadline_eq := by
    have hdeadline : f.race.deadline =
        (Scope.ofTimeout f.start f.handler.timeout).deadline.map roundUp := rfl
    rw [hdeadline, h]
    simp [Handler.timeout, idleHandler, Scope.ofTimeout, Scope.unbounded]

/-- The one is answered while the other hangs, just as when it comes alone. -/
theorem pairServer_answers_beside_stuck :
    ∃ t f r reply, (Traffic.begin 0).run pairServer [.arrive (visitTo "/s"),
        .arrive (visitTo "/i"), .within 1 (.task false), .within 1 .look, .tick] = some t ∧
      (f, r) ∈ t.inFlight ∧ f.handler = idleHandler ∧ f.reply? r = some reply ∧
      reply = (pairServer.handle f.start f.visit).reply := by
  obtain ⟨⟨slow, hslow⟩, fast, hfast⟩ := reach_pairServer
  obtain ⟨t, f, r, reply, hrun, hmem, hhandler, hreply, hleaves⟩ :
      ∃ t f r reply, (Traffic.begin 0).run pairServer [.arrive (visitTo "/s"),
          .arrive (visitTo "/i"), .within 1 (.task false), .within 1 .look, .tick] = some t ∧
        (f, r) ∈ t.inFlight ∧ f.handler = idleHandler ∧ f.reply? r = some reply ∧
        f.leaves = none := by
    simp only [Traffic.run, Traffic.step, Traffic.arrive, hslow, hfast]
    exact ⟨_, _, _, _, rfl, .tail _ (.head _), rfl, rfl, rfl⟩
  have hsame := ((requests_are_independent pairServer 0 _ t hrun).1 (f, r) hmem).2
  have huntied : f.race.Untied f.leaves := hleaves ▸ (answering_idle hhandler).untied
  exact ⟨t, f, r, reply, hrun, hmem, hhandler, hreply, (hsame (Or.inl huntied)).reply_eq hreply⟩

end Gateway.Server

/-
Module: Gateway.Proofs.Accounting
Layer: Proofs
Purpose: The counters add up.  What one request adds to the journal is what its answer amounts to,
  and a report for every result that nobody waited for (`accounted_handle`,
  `Flight.accounted_news`).  The journal of a session is made of those of its requests
  (`session_perm`), and the journal of any traffic grows by those of its steps
  (`Traffic.booked_of_goes`), so both balance with the answers given and the results returned in
  vain (`requests_are_accounted`).
Main exports: Metrics.total_tally, Answer, Accounted, Balanced, Accounted.balanced,
  accounted_handle, accounted_session, Traffic.booked_of_run, requests_are_accounted
-/
import Mathlib.Algebra.BigOperators.Group.List.Lemmas
import Mathlib.Algebra.GroupWithZero.Nat
import Mathlib.Data.List.Dedup
import Gateway.Proofs.Dispatch
import Gateway.Proofs.Results
import Gateway.Server.Session

namespace Gateway

open Endpoint (Handler Handling Invocation Outcome Conclusion Race Reply Waiter)

/-! ### Tallies -/

namespace Metrics

theorem nodup_eraseDups (l : List Series) : l.eraseDups.Nodup := by
  induction h : l.length using Nat.strong_induction_on generalizing l with
  | _ n ih =>
      cases l with
      | nil => exact List.nodup_nil
      | cons a rest =>
          rw [List.eraseDups_cons]
          refine List.nodup_cons.2 ⟨by simp, ih _ ?_ _ rfl⟩
          rw [← h]
          exact Nat.lt_succ_of_le (List.length_filter_le _ rest)

theorem eraseDups_perm_dedup (l : List Series) : l.eraseDups.Perm l.dedup :=
  (List.perm_ext_iff_of_nodup (nodup_eraseDups l) (List.nodup_dedup l)).2 fun a => by simp

/-- What the series with some property have counted together. -/
def total (p : Series → Bool) (tallied : List (Series × Nat)) : Nat :=
  ((tallied.filter fun entry => p entry.1).map (·.2)).sum

/-- A tally loses nothing. -/
theorem total_tally (p : Series → Bool) (counted : List Series) :
    total p (tally counted) = counted.countP p := by
  have hfilter : (tally counted).filter (fun entry => p entry.1) =
      (counted.eraseDups.filter p).map fun series => (series, counted.count series) := by
    rw [tally, List.filter_map]
    rfl
  rw [total, hfilter, List.map_map, ← List.sum_map_count_dedup_filter_eq_countP p counted]
  exact (((eraseDups_perm_dedup counted).filter p).map _).sum_eq

/-- Whether a series counts the requests to a path. -/
def isRequestsTo (path : String) : Series → Bool
  | .requests endpoint _ _ => endpoint == path
  | _ => false

/-- Whether a series counts the requests to a path that were answered with a status. -/
def isRequestsWith (path : String) (code : Nat) : Series → Bool
  | .requests endpoint _ status => endpoint == path && status == code
  | _ => false

end Metrics

namespace Server

/-! ### Answers -/

/-- An answer of an endpoint's handler. -/
structure Answer where
  path : String
  method : String
  status : Nat
  /-- The deadline passed before there was a result. -/
  timedOut : Bool

/-- What an answer adds to the counters. -/
def Answer.series (a : Answer) : List Metrics.Series :=
  (if a.timedOut then [.timeouts a.path] else [])
    ++ [.requests a.path a.method a.status, .durations a.path]

/-- Journal entries that come from some answers, and from some results that nobody waited for. -/
structure Accounted (entries : List Journal.Entry) (answers : List Answer) (late : Nat) : Prop where
  counts : (Journal.counts entries).Perm (answers.flatMap Answer.series)
  dropped : (Journal.records entries).count Handler.droppedRecord = late
  status_eq : ∀ a ∈ answers, a.timedOut = true → a.status = 500

theorem Accounted.nil : Accounted [] [] 0 :=
  ⟨.refl _, rfl, nofun⟩

section Accounted

variable {entries more : List Journal.Entry} {answers new : List Answer} {late later : Nat}

theorem Accounted.append (h : Accounted entries answers late) (h' : Accounted more new later) :
    Accounted (entries ++ more) (answers ++ new) (late + later) where
  counts := by
    rw [Journal.counts, List.filterMap_append, List.flatMap_append]
    exact h.counts.append h'.counts
  dropped := by
    rw [Journal.records, List.filterMap_append, List.count_append, ← h.dropped, ← h'.dropped]
    rfl
  status_eq a ha := (List.mem_append.1 ha).elim (h.status_eq a) (h'.status_eq a)

theorem Accounted.perm (h : Accounted entries answers late) (hentries : entries.Perm more)
    (hanswers : answers.Perm new) : Accounted more new late where
  counts := ((hentries.filterMap _).symm.trans h.counts).trans (hanswers.flatMap_right _)
  dropped := by
    rw [← h.dropped]
    exact ((hentries.filterMap _).count_eq _).symm
  status_eq a ha := h.status_eq a (hanswers.mem_iff.2 ha)

/-- The counters balance with the answers that were given. -/
structure Balanced (entries : List Journal.Entry) (answers : List Answer) (late : Nat) : Prop where
  /-- Each answer is counted under its own method and status. -/
  requests_eq : ∀ path method status,
    Metrics.total (· == .requests path method status)
        (Metrics.tally (Journal.counts entries)) =
      answers.countP fun a => a.path == path && a.method == method && a.status == status
  requests_total : ∀ path,
    Metrics.total (Metrics.isRequestsTo path) (Metrics.tally (Journal.counts entries)) =
      answers.countP (·.path == path)
  durations_eq : ∀ path,
    Metrics.total (· == .durations path) (Metrics.tally (Journal.counts entries)) =
      answers.countP (·.path == path)
  timeouts_eq : ∀ path,
    Metrics.total (· == .timeouts path) (Metrics.tally (Journal.counts entries)) =
      answers.countP fun a => a.path == path && a.timedOut
  timeouts_le : ∀ path,
    Metrics.total (· == .timeouts path) (Metrics.tally (Journal.counts entries)) ≤
      Metrics.total (Metrics.isRequestsWith path 500) (Metrics.tally (Journal.counts entries))
  /-- Each result that nobody waited for is reported once. -/
  dropped_eq : (Journal.records entries).count Handler.droppedRecord = late

theorem Answer.countP_series (a : Answer) (p : Metrics.Series → Bool) :
    a.series.countP p = (if a.timedOut && p (.timeouts a.path) then 1 else 0) +
      (if p (.requests a.path a.method a.status) then 1 else 0) +
      if p (.durations a.path) then 1 else 0 := by
  have hrest : List.countP p [.requests a.path a.method a.status, .durations a.path] =
      (if p (.requests a.path a.method a.status) then 1 else 0) +
        if p (.durations a.path) then 1 else 0 := by
    rw [List.countP_cons, List.countP_cons, List.countP_nil, Nat.zero_add, Nat.add_comm]
  rw [series, List.countP_append, hrest, Nat.add_assoc]
  cases a.timedOut <;> simp

theorem countP_flatMap_series {p : Metrics.Series → Bool} {q : Answer → Bool}
    (h : ∀ a : Answer, a.series.countP p = if q a then 1 else 0) (answers : List Answer) :
    (answers.flatMap Answer.series).countP p = answers.countP q := by
  induction answers with
  | nil => rfl
  | cons a rest ih =>
      rw [List.flatMap_cons, List.countP_append, h, ih, List.countP_cons, Nat.add_comm]

theorem Accounted.total_eq (h : Accounted entries answers late) {p : Metrics.Series → Bool}
    {q : Answer → Bool} (hseries : ∀ a : Answer, a.series.countP p = if q a then 1 else 0) :
    Metrics.total p (Metrics.tally (Journal.counts entries)) = answers.countP q := by
  rw [Metrics.total_tally, h.counts.countP_eq, countP_flatMap_series hseries]

theorem Accounted.balanced (h : Accounted entries answers late) :
    Balanced entries answers late := by
  have htimeouts : ∀ path, Metrics.total (· == .timeouts path)
      (Metrics.tally (Journal.counts entries)) =
        answers.countP fun a => a.path == path && a.timedOut := by
    intro path
    apply h.total_eq
    intro a
    simp [a.countP_series, and_comm]
  refine ⟨?_, ?_, ?_, htimeouts, ?_, h.dropped⟩
  · intro path method status
    apply h.total_eq
    intro a
    simp [a.countP_series, and_assoc]
  · intro path
    apply h.total_eq
    intro a
    simp [a.countP_series, Metrics.isRequestsTo]
  · intro path
    apply h.total_eq
    intro a
    simp [a.countP_series]
  · intro path
    have hstatus : Metrics.total (Metrics.isRequestsWith path 500)
        (Metrics.tally (Journal.counts entries)) =
          answers.countP fun a => a.path == path && a.status == 500 := by
      apply h.total_eq
      intro a
      simp [a.countP_series, Metrics.isRequestsWith]
    rw [htimeouts, hstatus]
    apply List.countP_mono_left
    intro a ha htimed
    simp only [Bool.and_eq_true, beq_iff_eq] at htimed ⊢
    exact ⟨htimed.1, h.status_eq a ha htimed.2⟩

end Accounted

/-! ### One request -/

/-- The journal of a request, without its stamps. -/
def entriesOf (handling : Handling) : List Journal.Entry :=
  handling.journal.map (·.entry)

/-- Whether a wait ended with the deadline. -/
def isTimeout : Conclusion → Bool
  | .ended _ .timeout => true
  | _ => false

/-- Whether the pipeline of an invocation returns when nobody waits any more. -/
def isLate (inv : Invocation) : Bool :=
  match inv.trace.ending with
  | some (instant, .returned _) => inv.stop.any (· ≤ instant)
  | _ => false

/-- The answer that a reply is; a client that went away gets none. -/
def answerIn (handler : Handler) (visit : Visit) (timedOut : Bool) : Reply → List Answer
  | .answered _ response =>
    [⟨handler.endpoint.endpoint, visit.request.method.text, response.status, timedOut⟩]
  | _ => []

/-- The invocation that a visit leads to, if it comes as far as the pipeline. -/
def invocation? (server : Server) (start : Instant) (visit : Visit) : Option Invocation :=
  (server.reach visit).map fun (handler, forwarded) =>
    handler.invoke start (visit.patience.map (start + ·)) forwarded

/-- The answers that a handler gives to a visit: one, or none if there is no handler or the client
goes away. -/
def answersTo (server : Server) (start : Instant) (visit : Visit) : List Answer :=
  match server.router.find? visit.request.uri.path with
  | none => []
  | some handler =>
    answerIn handler visit
      ((server.invocation? start visit).any fun inv => isTimeout inv.conclusion)
      (server.handle start visit).reply

/-- Whether the pipeline of a visit returns when nobody waits any more. -/
def returnsLate (server : Server) (start : Instant) (visit : Visit) : Bool :=
  (server.invocation? start visit).any isLate

/-- The records of handlers tell of other things than of results that nobody waited for. -/
theorem record_ne_dropped (handler : Handler) (level : Log.Level) (message : String)
    (fields : List (String × String)) :
    handler.record level message fields ≠ Handler.droppedRecord := by
  intro h
  have htarget : "edge_gateway::http::handler" = "edge_gateway::pipeline::invoker" :=
    congrArg Log.Record.target h
  exact absurd htarget (by decide +kernel)

theorem outcomeRecord_ne_dropped (handler : Handler) (outcome : Outcome) :
    handler.outcomeRecord outcome ≠ Handler.droppedRecord := by
  unfold Handler.outcomeRecord
  split <;> exact record_ne_dropped handler _ _ _

theorem rejectionRecord_ne_dropped (handler : Handler) (method : Http.Method)
    (rejection : Endpoint.Rejection) :
    handler.rejectionRecord method rejection ≠ Handler.droppedRecord := by
  cases rejection <;> exact record_ne_dropped handler _ _ _

theorem counts_map_count (series : List Metrics.Series) :
    Journal.counts (series.map .count) = series := by
  rw [Journal.counts, List.filterMap_map]
  exact List.filterMap_some

theorem records_map_count (series : List Metrics.Series) :
    Journal.records (series.map .count) = [] := by
  rw [Journal.records, List.filterMap_map]
  exact List.filterMap_eq_nil_iff.2 fun _ _ => rfl

/-- A record, and what is counted for one answer. -/
theorem accounted_answer {record : Log.Record} {a : Answer}
    (hrecord : record ≠ Handler.droppedRecord) (hstatus : a.timedOut = true → a.status = 500) :
    Accounted (.log record :: a.series.map .count) [a] 0 where
  counts := by
    rw [List.flatMap_singleton]
    exact List.Perm.of_eq (counts_map_count a.series)
  dropped := by
    have hrecords : Journal.records (.log record :: a.series.map .count) = [record] :=
      congrArg (record :: ·) (records_map_count a.series)
    rw [hrecords]
    exact List.count_eq_zero.2 fun hmem => hrecord (List.mem_singleton.1 hmem).symm
  status_eq b hb := by
    obtain rfl := List.mem_singleton.1 hb
    exact hstatus

/-- What the end of a wait adds to the journal is what the answer amounts to. -/
theorem accounted_conclude (handler : Handler) (visit : Visit) (conclusion : Conclusion) :
    Accounted (entriesOf (handler.conclude visit.identified.method conclusion))
      (answerIn handler visit (isTimeout conclusion)
        (deliver visit (handler.conclude visit.identified.method conclusion).reply)) 0 := by
  cases conclusion with
  | abandoned | unending => exact .nil
  | ended instant outcome =>
      have hrecord := outcomeRecord_ne_dropped handler outcome
      have hanswer : answerIn handler visit (isTimeout (.ended instant outcome))
          (deliver visit (handler.conclude visit.identified.method
            (.ended instant outcome)).reply) =
          [⟨handler.endpoint.endpoint, visit.request.method.text,
            (handler.respond outcome).status, isTimeout (.ended instant outcome)⟩] := by
        simp only [Handler.conclude, deliver, answerIn, status_deliver]
      have hentries : entriesOf (handler.conclude visit.identified.method
          (.ended instant outcome)) =
          .log (handler.outcomeRecord outcome) :: (Answer.series
            ⟨handler.endpoint.endpoint, visit.request.method.text,
              (handler.respond outcome).status,
              isTimeout (.ended instant outcome)⟩).map .count := by
        rw [entriesOf, Handler.conclude, List.map_map, method_identified]
        cases outcome <;> rfl
      rw [hanswer, hentries]
      apply accounted_answer hrecord
      intro htimeout
      cases outcome with
      | timeout => rfl
      | _ => cases htimeout

/-- Notes count nothing. -/
theorem accounted_notes (path : String) (notes : List (Instant × String)) :
    Accounted (notes.map fun note => .note path note.2) [] 0 where
  counts := by
    rw [Journal.counts, List.filterMap_map]
    exact List.Perm.of_eq (List.filterMap_eq_nil_iff.2 fun _ _ => rfl)
  dropped := by
    rw [Journal.records, List.filterMap_map]
    exact List.count_eq_zero.2 fun hmem => by simp at hmem
  status_eq := nofun

/-- Reports of results that nobody waited for. -/
theorem accounted_reports (n : Nat) :
    Accounted (List.replicate n (.log Handler.droppedRecord)) [] n where
  counts := by
    have hnone : Journal.counts (List.replicate n (.log Handler.droppedRecord)) = [] := by
      simp [Journal.counts, List.filterMap_replicate_of_none]
    rw [hnone]
    exact .refl _
  dropped := by
    have hrecords : Journal.records (List.replicate n (.log Handler.droppedRecord)) =
        List.replicate n Handler.droppedRecord := List.filterMap_replicate_of_some rfl
    rw [hrecords, List.count_replicate_self]
  status_eq := nofun

/-- What the pipeline adds to the journal: a report if its result comes too late. -/
theorem accounted_pipelineJournal (path : String) (inv : Invocation) :
    Accounted ((Handler.pipelineJournal path inv).map (·.entry)) [] (isLate inv).toNat := by
  have hnotes := accounted_notes path inv.trace.notes
  have hreported := hnotes.append (accounted_reports 1)
  rw [List.append_nil, Nat.zero_add] at hreported
  rw [← List.append_nil (inv.trace.notes.map _)] at hnotes
  rw [Handler.pipelineJournal, List.map_append, List.map_map, isLate, Invocation.late?]
  cases inv.trace.ending with
  | none => exact hnotes
  | some last =>
      obtain ⟨instant, e⟩ := last
      simp only [Option.filter_some]
      cases e with
      | returned answer =>
          dsimp only
          cases inv.stop.any (· ≤ instant) with
          | false => exact hnotes
          | true => exact hreported
      | crashed =>
          cases inv.stop.any (· ≤ instant) with
          | false => exact hnotes
          | true => exact hnotes

/-- What turning a request away adds to the journal is what the answer amounts to. -/
theorem accounted_reject (handler : Handler) (visit : Visit) (start : Instant)
    (rejection : Endpoint.Rejection) :
    Accounted (entriesOf (handler.reject visit.identified.method start rejection))
      (answerIn handler visit false
        (deliver visit (handler.reject visit.identified.method start rejection).reply)) 0 := by
  have hrecord := rejectionRecord_ne_dropped handler visit.identified.method rejection
  have hanswer : answerIn handler visit false
      (deliver visit (handler.reject visit.identified.method start rejection).reply) =
      [⟨handler.endpoint.endpoint, visit.request.method.text,
        (Endpoint.withBanner (Endpoint.render rejection.outcome none)).status, false⟩] := by
    simp only [Handler.reject, deliver, answerIn, status_deliver]
  have hentries : entriesOf (handler.reject visit.identified.method start rejection) =
      .log (handler.rejectionRecord visit.identified.method rejection) :: (Answer.series
        ⟨handler.endpoint.endpoint, visit.request.method.text,
          (Endpoint.withBanner (Endpoint.render rejection.outcome none)).status,
          false⟩).map .count := by
    rw [entriesOf, Handler.reject, List.map_map, method_identified]
    rfl
  rw [hanswer, hentries]
  exact accounted_answer hrecord (by simp)

theorem reach_of_error {server : Server} {visit : Visit} {handler : Handler}
    {rejection : Endpoint.Rejection}
    (hfind : server.router.find? visit.request.uri.path = some handler)
    (hreceive : handler.receive visit.identified = .error rejection) :
    server.reach visit = none := by
  simp only [reach, hfind, hreceive]

/-- What a request adds to the journal is what its answer amounts to, and a report if its pipeline's
result came too late. -/
theorem accounted_handle (server : Server) (start : Instant) (visit : Visit) :
    Accounted (entriesOf (server.handle start visit)) (server.answersTo start visit)
      (server.returnsLate start visit).toNat := by
  cases hfind : server.router.find? visit.request.uri.path with
  | none =>
      have hreach : server.reach visit = none := by simp only [reach, hfind]
      simp only [answersTo, returnsLate, invocation?, Server.handle, hfind, hreach]
      exact .nil
  | some handler =>
      cases hreceive : handler.receive visit.identified with
      | error rejection =>
          have hreach := reach_of_error hfind hreceive
          simp only [answersTo, returnsLate, invocation?, Server.handle, hfind, hreach,
            Handler.handle, hreceive]
          exact accounted_reject handler visit start rejection
      | ok forwarded =>
          have hreach := reach_eq_some_iff.2 ⟨hfind, hreceive⟩
          simp only [answersTo, returnsLate, invocation?, Server.handle, hfind, hreach,
            Handler.handle, hreceive]
          have h := (accounted_conclude handler visit (handler.invoke start
            (visit.patience.map (start + ·)) forwarded).conclusion).append
              (accounted_pipelineJournal forwarded.path (handler.invoke start
                (visit.patience.map (start + ·)) forwarded))
          rw [List.append_nil, Nat.zero_add] at h
          rw [entriesOf, List.map_append]
          exact h

/-! ### A session -/

/-- The moment after all groups of a session. -/
def lastMoment (server : Server) (pause : Nat) (since : Moment) : List (List Visit) → Moment
  | [] => since
  | visits :: rest => server.lastMoment pause (server.round pause since visits).2 rest

/-- The visits of a session, each with its start. -/
def calls (server : Server) (pause : Nat) (since : Moment) :
    List (List Visit) → List (Instant × Visit)
  | [] => []
  | visits :: rest =>
    visits.map (since.now, ·) ++ server.calls pause (server.round pause since visits).2 rest

/-- What a session has written so far. -/
def written (rounds : List Round) : List Journal.Entry :=
  rounds.flatMap (·.entries)

/-- A round writes what was ahead and what its own visits write, or leaves it ahead. -/
theorem round_perm (server : Server) (pause : Nat) (since : Moment) (visits : List Visit) :
    ((server.round pause since visits).1.entries ++
      (server.round pause since visits).2.ahead.map (·.entry)).Perm
      (since.ahead.map (·.entry) ++
        visits.flatMap fun visit => entriesOf (server.handle since.now visit)) := by
  let written := since.ahead ++
    ((visits.map (server.handle since.now)).map (·.journal)).flatten
  let horizon := (server.round pause since visits).2.now
  have hsplit : ((Journal.merge written).filter (·.stamp.instant ≤ horizon) ++
      (Journal.merge written).filter (horizon < ·.stamp.instant)).Perm written := by
    have hlater : ((Journal.merge written).filter fun e => horizon < e.stamp.instant) =
        (Journal.merge written).filter fun e => !decide (e.stamp.instant ≤ horizon) := by
      apply List.filter_congr
      intro e _
      by_cases hle : e.stamp.instant ≤ horizon <;> simp [hle, Nat.not_lt.2, Nat.lt_of_not_le]
    rw [hlater]
    exact (List.filter_append_perm _ _).trans (List.mergeSort_perm _ _)
  have hentries := hsplit.map (·.entry)
  rw [List.map_append] at hentries
  refine hentries.trans (List.Perm.of_eq ?_)
  rw [List.map_append, List.map_flatten, List.map_map, List.map_map, List.flatMap]
  rfl

/-- A session writes what its visits write, but for what is still ahead. -/
theorem session_perm (server : Server) (pause : Nat) (since : Moment)
    (groups : List (List Visit)) :
    (written (server.session pause since groups) ++
      (server.lastMoment pause since groups).ahead.map (·.entry)).Perm
      (since.ahead.map (·.entry) ++ (server.calls pause since groups).flatMap
        fun call => entriesOf (server.handle call.1 call.2)) := by
  induction groups generalizing since with
  | nil => simp [written, session, lastMoment, calls]
  | cons visits rest ih =>
      have hround := round_perm server pause since visits
      have hrest := ih (server.round pause since visits).2
      have hwritten : written (server.session pause since (visits :: rest)) =
          (server.round pause since visits).1.entries ++
            written (server.session pause (server.round pause since visits).2 rest) := rfl
      rw [hwritten, lastMoment, calls, List.flatMap_append, List.flatMap_map, List.append_assoc,
        ← List.append_assoc (since.ahead.map _)]
      refine (hrest.append_left _).trans ?_
      rw [← List.append_assoc]
      exact hround.append_right _

theorem accounted_calls (server : Server) (calls : List (Instant × Visit)) :
    Accounted (calls.flatMap fun call => entriesOf (server.handle call.1 call.2))
      (calls.flatMap fun call => server.answersTo call.1 call.2)
      (calls.countP fun call => server.returnsLate call.1 call.2) := by
  induction calls with
  | nil => exact .nil
  | cons call rest ih =>
      have h := (accounted_handle server call.1 call.2).append ih
      rw [List.flatMap_cons, List.flatMap_cons, List.countP_cons, Nat.add_comm]
      cases hlate : server.returnsLate call.1 call.2 <;> simpa [hlate] using h

/-- Once nothing is ahead any more, what a session has written is what its answers amount to, and a
report for each result that came too late. -/
theorem accounted_session (server : Server) (pause : Nat) (start : Instant)
    (groups : List (List Visit))
    (hover : (server.lastMoment pause ⟨start, []⟩ groups).ahead = []) :
    Accounted (written (server.session pause ⟨start, []⟩ groups))
      ((server.calls pause ⟨start, []⟩ groups).flatMap fun call =>
        server.answersTo call.1 call.2)
      ((server.calls pause ⟨start, []⟩ groups).countP fun call =>
        server.returnsLate call.1 call.2) := by
  have hperm := session_perm server pause ⟨start, []⟩ groups
  rw [hover, List.map_nil, List.append_nil, List.nil_append] at hperm
  exact (accounted_calls server _).perm hperm.symm (.refl _)

theorem calls_visits (server : Server) (pause : Nat) (since : Moment)
    (groups : List (List Visit)) :
    (server.calls pause since groups).map (·.2) = groups.flatten := by
  induction groups generalizing since with
  | nil => rfl
  | cons visits rest ih =>
      rw [calls, List.map_append, ih, List.map_map, List.flatten_cons]
      exact congrArg (· ++ rest.flatten) (List.map_id visits)

theorem lastMoment_append (server : Server) (pause : Nat) (since : Moment)
    (groups more : List (List Visit)) :
    server.lastMoment pause since (groups ++ more) =
      server.lastMoment pause (server.lastMoment pause since groups) more := by
  induction groups generalizing since with
  | nil => rfl
  | cons visits rest ih => exact ih _

/-- What is still ahead after some empty rounds was ahead before, and comes after all of their
pauses. -/
theorem ahead_of_mem_lastMoment {server : Server} {pause n : Nat} {since : Moment}
    {e : Journal.Stamped}
    (h : e ∈ (server.lastMoment pause since (List.replicate n [])).ahead) :
    e ∈ since.ahead ∧ (n = 0 ∨ since.now + n * pause < e.stamp.instant) := by
  induction n generalizing since with
  | zero => exact ⟨h, Or.inl rfl⟩
  | succ n ih =>
      have hnow : (server.round pause since []).2.now = since.now + pause := rfl
      obtain ⟨hmem, hlater⟩ := ih h
      obtain ⟨hwritten, hafter⟩ := List.mem_filter.1 hmem
      have hahead : e ∈ since.ahead ++ [] := (List.mergeSort_perm _ _).mem_iff.1 hwritten
      have hfirst : since.now + pause < e.stamp.instant := of_decide_eq_true hafter
      rw [List.append_nil] at hahead
      refine ⟨hahead, Or.inr ?_⟩
      rw [Nat.succ_mul]
      rcases hlater with rfl | hlater
      · rwa [Nat.zero_mul, Nat.zero_add]
      · rwa [hnow, Nat.add_assoc, Nat.add_comm pause] at hlater

theorem exists_instant_bound (entries : List Journal.Stamped) :
    ∃ bound, ∀ e ∈ entries, e.stamp.instant ≤ bound := by
  induction entries with
  | nil => exact ⟨0, nofun⟩
  | cons e rest ih =>
      obtain ⟨bound, hbound⟩ := ih
      refine ⟨max e.stamp.instant bound, ?_⟩
      intro other hother
      rcases List.mem_cons.1 hother with rfl | hrest
      · exact Nat.le_max_left _ _
      · exact Nat.le_trans (hbound other hrest) (Nat.le_max_right _ _)

/-- After any session enough empty rounds leave nothing ahead. -/
theorem exists_nothing_ahead (server : Server) {pause : Nat} (hpause : 0 < pause) (since : Moment)
    (groups : List (List Visit)) :
    ∃ n, (server.lastMoment pause since (groups ++ List.replicate n [])).ahead = [] := by
  obtain ⟨bound, hbound⟩ := exists_instant_bound (server.lastMoment pause since groups).ahead
  refine ⟨bound + 1, List.eq_nil_iff_forall_not_mem.2 ?_⟩
  intro e he
  rw [lastMoment_append] at he
  obtain ⟨hmem, hzero | hlater⟩ := ahead_of_mem_lastMoment he
  · exact absurd hzero (Nat.succ_ne_zero bound)
  · have hpauses : bound < (bound + 1) * pause := Nat.le_mul_of_pos_right _ hpause
    have hpast : bound < e.stamp.instant :=
      Nat.lt_trans (Nat.lt_of_lt_of_le hpauses (Nat.le_add_left _ _)) hlater
    exact absurd (hbound e hmem) (Nat.not_le.2 hpast)

/-- A result is what the wait ends with, or it is one that nobody waits for. -/
theorem disposed_of_returned {inv : Invocation} {instant : Instant} {answer : Pipeline.Answer}
    (hending : inv.trace.ending = some (instant, .returned answer)) :
    Race.Disposed instant answer inv.conclusion (isLate inv) := by
  have hlate : isLate inv = inv.stop.any (· ≤ instant) := by rw [isLate, hending]
  cases hstop : inv.stop.any (· ≤ instant) with
  | false =>
      have hlt : ∀ t, inv.stop = some t → instant < t := by
        intro t ht
        simpa [ht] using hstop
      exact .answered (Invocation.conclusion_of_inTime hending hlt) (hlate.trans hstop)
  | true =>
      obtain ⟨stop, hsome, hle⟩ : ∃ t, inv.stop = some t ∧ t ≤ instant := by
        simpa [Option.any_eq_true] using hstop
      have hafter : ∀ t e, inv.trace.ending = some (t, e) → stop ≤ t := by
        intro t e he
        rw [hending] at he
        cases he
        exact hle
      rw [Invocation.conclusion_of_late hsome hafter]
      have hresultless : Race.Resultless inv.givenUp :=
        fun heq => (Invocation.givenUp_eq_ended_inv heq).2.1
      exact .dropped hresultless (hlate.trans hstop)

/-- A visit that comes as far as the pipeline is answered as its invocation concludes. -/
theorem reply_of_invocation {server : Server} {start : Instant} {visit : Visit} {handler : Handler}
    (hfind : server.router.find? visit.request.uri.path = some handler) {inv : Invocation}
    (hinv : server.invocation? start visit = some inv) :
    (server.handle start visit).reply =
      deliver visit (handler.conclude visit.identified.method inv.conclusion).reply := by
  obtain ⟨⟨found, forwarded⟩, hreach, rfl⟩ := Option.map_eq_some_iff.1 hinv
  obtain ⟨hfound, hreceive⟩ := reach_eq_some_iff.1 hreach
  cases hfind.symm.trans hfound
  simp only [Server.handle, hfind, Handler.handle, hreceive]

/-! ### Traffic -/

/-- The answer that a flight has come to, if it has. -/
def Flight.answers (f : Flight) (r : Race) : List Answer :=
  ((f.reply? r).map (answerIn f.handler f.visit (r.waiter.conclusion?.any isTimeout))).getD []

/-- The answers that handlers have given so far. -/
def Traffic.answers (server : Server) (t : Traffic) : List Answer :=
  (t.dismissals.flatMap fun d => server.answersTo d.start d.visit)
    ++ t.inFlight.flatMap fun p => p.1.answers p.2

/-- How many results have come so far that nobody waited for. -/
def Traffic.dropped (t : Traffic) : Nat :=
  (t.inFlight.map (·.2.dropped)).sum

variable {f : Flight} {r s : Race}

theorem Flight.answers_of_waiting (h : r.waiter = .waiting) : f.answers r = [] := by
  simp [answers, reply?, handling?, h, Waiter.conclusion?]

theorem Flight.answers_congr (h : s.waiter = r.waiter) : f.answers s = f.answers r := by
  simp [answers, reply?, handling?, h]

theorem Flight.news_eq (f : Flight) {notes : List (Instant × String)}
    (hnotes : s.notes = r.notes ++ notes) :
    f.news r s = notes.map (fun note => .note f.forwarded.path note.2) ++ f.ending r s ++
      List.replicate (s.dropped - r.dropped) (.log Handler.droppedRecord) := by
  rw [news, hnotes, List.drop_left]

theorem Flight.ending_of_waiter_eq (h : s.waiter = r.waiter) : f.ending r s = [] := by
  rw [ending]
  split
  · rename_i hwaits
    simp [handling?, h, Option.isNone_iff_eq_none.1 hwaits]
  · rfl

/-- The end of a wait adds to the journal what the answer amounts to. -/
theorem Flight.accounted_finish (f : Flight) (hw : r.waiter = .waiting) (waiter : Waiter) :
    Accounted (f.ending r (r.finish waiter)) (f.answers (r.finish waiter)) 0 := by
  have hwaits : r.waiter.conclusion?.isNone = true := by rw [hw]; rfl
  rw [ending, if_pos hwaits]
  change Accounted ((((waiter.conclusion?).map (f.handler.conclude f.visit.identified.method)).map
    entriesOf).getD []) _ 0
  cases hover : waiter.conclusion? with
  | none =>
      have hnone : f.answers (r.finish waiter) = [] := by
        simp [answers, reply?, handling?, Race.finish, hover]
      rw [hnone]
      exact .nil
  | some conclusion =>
      have hsome : f.answers (r.finish waiter) = answerIn f.handler f.visit (isTimeout conclusion)
          (deliver f.visit (f.handler.conclude f.visit.identified.method conclusion).reply) := by
        simp [answers, reply?, handling?, Race.finish, hover]
      rw [hsome]
      exact accounted_conclude f.handler f.visit conclusion

theorem Flight.accounted_finish_news (f : Flight) (hw : r.waiter = .waiting) (waiter : Waiter) :
    ∃ new, f.answers (r.finish waiter) = f.answers r ++ new ∧
      Accounted (f.news r (r.finish waiter)) new ((r.finish waiter).dropped - r.dropped) := by
  refine ⟨f.answers (r.finish waiter), ?_, ?_⟩
  · rw [answers_of_waiting hw, List.nil_append]
  · have hnotes : (r.finish waiter).notes = r.notes ++ [] := (List.append_nil _).symm
    rw [f.news_eq hnotes]
    have h := f.accounted_finish hw waiter
    simpa [Race.finish] using h

theorem exists_notes_of_task {followsEnd : Bool} (h : r.step (.task followsEnd) = some s) :
    ∃ more, s.notes = r.notes ++ more := by
  have unchanged : s.notes = r.notes → ∃ more, s.notes = r.notes ++ more :=
    fun heq => ⟨[], by rw [heq, List.append_nil]⟩
  obtain ⟨program, htask, hstep⟩ := Option.bind_eq_some_iff.1 h
  cases program with
  | note label next =>
      cases hstep
      exact ⟨_, rfl⟩
  | stall => cases hstep
  | cancel | inspect =>
      cases hstep
      exact unchanged rfl
  | answer | crash | sleepUntil | awaitEnd =>
      rw [Race.stepTask] at hstep
      split at hstep <;> cases hstep <;> exact unchanged rfl
  | sleepOrEnd instant slept ended =>
      simp only [Race.stepTask] at hstep
      split at hstep
      · cases hstep
        exact unchanged rfl
      · split at hstep <;> cases hstep
        exact unchanged rfl

/-- What a move in a flight adds to the journal is what the answer amounts to that the flight comes
to with it, and a report if a result comes that nobody waits for. -/
theorem Flight.accounted_news (f : Flight) {move : Race.Move} (hmove : move ≠ .tick)
    (hstep : r.step move = some s) :
    ∃ new, f.answers s = f.answers r ++ new ∧
      Accounted (f.news r s) new (s.dropped - r.dropped) := by
  cases move with
  | task followsEnd =>
      obtain ⟨more, hnotes⟩ := exists_notes_of_task hstep
      have hwaiter := (Race.task_frame hstep).2.1
      refine ⟨[], by rw [answers_congr hwaiter, List.append_nil], ?_⟩
      rw [f.news_eq hnotes, f.ending_of_waiter_eq hwaiter, List.append_nil]
      have h := (accounted_notes f.forwarded.path more).append
        (accounted_reports (s.dropped - r.dropped))
      rwa [List.append_nil, Nat.zero_add] at h
  | look =>
      obtain ⟨hw, outcome, _, rfl⟩ := Race.look_inv hstep
      exact f.accounted_finish_news hw _
  | leave =>
      obtain ⟨hw, rfl⟩ := Race.leave_inv hstep
      exact f.accounted_finish_news hw _
  | tick => exact absurd rfl hmove

variable {server : Server} {t u : Traffic}

theorem flatMap_answers_ticks {before after : List (Flight × Race)}
    (h : List.Forall₂ (fun p q => p.2.permits p.1.leaves .tick = true ∧
      p.2.step .tick = some q.2 ∧ q.1 = p.1.after .tick) before after) :
    (after.flatMap fun p => p.1.answers p.2) = (before.flatMap fun p => p.1.answers p.2) ∧
    after.map (·.2.dropped) = before.map (·.2.dropped) := by
  induction h with
  | nil => exact ⟨rfl, rfl⟩
  | cons hticked _ ih =>
      obtain ⟨_, hstep, hafter⟩ := hticked
      have hrace := (Race.tick_inv hstep).1
      rw [List.flatMap_cons, List.flatMap_cons, List.map_cons, List.map_cons, ih.1, ih.2, hafter,
        hrace]
      exact ⟨rfl, rfl⟩

/-- The journal of the traffic is what its answers amount to, and a report for each result that
nobody waited for. -/
def Traffic.Booked (server : Server) (t : Traffic) : Prop :=
  Accounted t.entries (t.answers server) t.dropped

theorem Traffic.booked_of_dismissal {visit : Visit} (h : t.Booked server)
    (hreach : server.reach visit = none) (hflights : u.inFlight = t.inFlight)
    (hdismissals : u.dismissals = t.dismissals ++
      [⟨visit, t.crowd.now, server.handle t.crowd.now visit⟩])
    (hentries : u.entries = t.entries ++
      (server.handle t.crowd.now visit).journal.map (·.entry)) : u.Booked server := by
  have hnone : server.returnsLate t.crowd.now visit = false := by
    simp [returnsLate, invocation?, hreach]
  have hhandle := accounted_handle server t.crowd.now visit
  rw [hnone] at hhandle
  have hdropped : u.dropped = t.dropped + 0 := by rw [dropped, hflights]; rfl
  rw [Booked, hentries, hdropped]
  refine (h.append hhandle).perm (.refl _) ?_
  simp only [answers, hflights, hdismissals, List.flatMap_append, List.flatMap_cons,
    List.flatMap_nil, List.append_nil, List.append_assoc]
  exact List.perm_append_comm.append_left _

theorem Traffic.booked_of_move {before after : List (Flight × Race)} {f : Flight} {r s : Race}
    {move : Race.Move} (h : t.Booked server) (hsplit : t.inFlight = before ++ (f, r) :: after)
    (hmove : move ≠ .tick) (hstep : r.step move = some s)
    (hflights : u.inFlight = before ++ (f.after move, s) :: after)
    (hdismissals : u.dismissals = t.dismissals) (hentries : u.entries = t.entries ++ f.news r s) :
    u.Booked server := by
  obtain ⟨new, hanswers, hnews⟩ := f.accounted_news hmove hstep
  have hcount := Race.dropped_of_step hstep
  have hdropped : u.dropped = t.dropped + (s.dropped - r.dropped) := by
    simp only [dropped, hsplit, hflights, List.map_append, List.map_cons, List.sum_append,
      List.sum_cons]
    omega
  have hafter : (f.after move).answers s = f.answers r ++ new := hanswers
  rw [Booked, hentries, hdropped]
  refine (h.append hnews).perm (.refl _) ?_
  simp only [answers, hsplit, hflights, hdismissals, List.flatMap_append, List.flatMap_cons, hafter,
    List.append_assoc]
  exact (List.perm_append_comm.append_left _).append_left _ |>.append_left _

theorem Traffic.booked_of_goes (h : t.Booked server) (hgoes : t.Goes server u) :
    u.Booked server := by
  cases hgoes with
  | reaches visit handler forwarded _ hflights hdismissals hentries _ =>
      have hanswers : u.answers server = t.answers server := by
        simp [answers, hflights, hdismissals, Flight.race, Race.ofInvocation,
          Flight.answers_of_waiting]
      have hdropped : u.dropped = t.dropped := by
        simp [dropped, hflights, Flight.race, Race.ofInvocation]
      rw [Booked, hentries, hanswers, hdropped]
      exact h
  | dismisses visit hreach hflights hdismissals hentries _ =>
      exact booked_of_dismissal h hreach hflights hdismissals hentries
  | moves before after f r s move hsplit hmove _ hstep hflights hdismissals hentries _ =>
      exact booked_of_move h hsplit hmove hstep hflights hdismissals hentries
  | ticks hticks hdismissals hentries _ =>
      obtain ⟨hanswers, hdropped⟩ := flatMap_answers_ticks hticks
      rw [Booked, hentries, answers, hanswers, dropped, hdropped, hdismissals]
      exact h

theorem Traffic.booked_of_run (h : t.Booked server) (hpaired : t.Paired) {moves : List Move}
    (hrun : t.run server moves = some u) : u.Booked server := by
  induction moves generalizing t with
  | nil => cases hrun; exact h
  | cons move moves ih =>
      obtain ⟨v, hstep, hrest⟩ := Option.bind_eq_some_iff.1 hrun
      obtain ⟨hpaired', hgoes⟩ := goes_of_step hpaired hstep
      exact ih (booked_of_goes h hgoes) hpaired' hrest

theorem sum_map_eq_countP {α : Type} {l : List α} {f : α → Nat} {p : α → Bool}
    (h : ∀ a ∈ l, f a = (p a).toNat) : (l.map f).sum = l.countP p := by
  induction l with
  | nil => rfl
  | cons a rest ih =>
      rw [List.map_cons, List.sum_cons, ih fun b hb => h b (List.mem_cons_of_mem _ hb),
        h a List.mem_cons_self, List.countP_cons, Nat.add_comm]
      cases p a <;> rfl

theorem Traffic.Sound.dropped_eq (h : t.Sound server) :
    t.dropped = t.inFlight.countP fun p => p.1.race.returnsUnheard p.1.history := by
  apply sum_map_eq_countP
  intro p hp
  exact (Race.dropped_of_course (h.flying p hp).course).trans (Nat.zero_add _)

/-- The visits that arrive with some moves. -/
def arrivals (moves : List Traffic.Move) : List Visit :=
  moves.filterMap fun move =>
    match move with
    | .arrive visit => some visit
    | _ => none

/-- The visits that have arrived. -/
def Traffic.visits (t : Traffic) : List Visit :=
  t.dismissals.map (·.visit) ++ t.flights.map (·.visit)

theorem map_set_of_eq {α β : Type} {f : α → β} {l : List α} {i : Nat} {a b : α}
    (ha : l[i]? = some a) (hb : f b = f a) : (l.set i b).map f = l.map f := by
  obtain ⟨before, after, hl, hset, _⟩ := exists_split_of_getElem? ha b
  rw [hset, hl, List.map_append, List.map_append, List.map_cons, List.map_cons, hb]

theorem Traffic.visits_of_step {move : Move} (hstep : t.step server move = some u) :
    u.visits.Perm (t.visits ++ arrivals [move]) := by
  cases move with
  | arrive visit =>
      change t.arrive server visit = some u at hstep
      unfold Traffic.arrive at hstep
      split at hstep
      · cases hstep
        simp [visits, arrivals]
      · cases hstep
        simp only [visits, arrivals, List.map_append, List.append_assoc]
        exact List.perm_append_comm.append_left _
  | within index move =>
      obtain ⟨f, r, s, hpair, _, _, _, rfl⟩ := moveWithin_eq_some_iff.1 hstep
      have hflight : t.flights[index]? = some f := (List.getElem?_zip_eq_some.1 hpair).1
      have hvisits : (t.flights.set index (f.after move)).map (·.visit) =
          t.flights.map (·.visit) := map_set_of_eq hflight rfl
      refine List.Perm.of_eq ?_
      simp only [visits, moved, hvisits]
      exact (List.append_nil _).symm
  | tick =>
      change t.tick = some u at hstep
      rw [Traffic.tick] at hstep
      split at hstep
      · obtain ⟨crowd, _, rfl⟩ := Option.map_eq_some_iff.1 hstep
        refine List.Perm.of_eq ?_
        simp only [visits, List.map_map]
        exact (List.append_nil _).symm
      · cases hstep

theorem Traffic.visits_of_run {moves : List Move} (hrun : t.run server moves = some u) :
    u.visits.Perm (t.visits ++ arrivals moves) := by
  induction moves generalizing t with
  | nil =>
      cases hrun
      exact List.Perm.of_eq (List.append_nil _).symm
  | cons move moves ih =>
      obtain ⟨v, hstep, hrest⟩ := Option.bind_eq_some_iff.1 hrun
      have hmoves : arrivals (move :: moves) = arrivals [move] ++ arrivals moves :=
        List.filterMap_append (l := [move])
      rw [hmoves, ← List.append_assoc]
      exact (ih hrest).trans ((visits_of_step hstep).append_right _)

/-! ### The balance -/

/-- What a session has written balances with its visits. -/
structure SessionBalances (server : Server) (pause : Nat) (start : Instant)
    (groups : List (List Visit)) : Prop where
  /-- Each visit is called once. -/
  calls_eq : (server.calls pause ⟨start, []⟩ groups).map (·.2) = groups.flatten
  balanced : Balanced (written (server.session pause ⟨start, []⟩ groups))
    ((server.calls pause ⟨start, []⟩ groups).flatMap fun call => server.answersTo call.1 call.2)
    ((server.calls pause ⟨start, []⟩ groups).countP fun call => server.returnsLate call.1 call.2)

/-- What a request gets alone is how its wait concludes, and its result is disposed of. -/
structure VisitSettles (server : Server) (start : Instant) (visit : Visit) (handler : Handler)
    (inv : Invocation) : Prop where
  reply_eq : (server.handle start visit).reply =
    deliver visit (handler.conclude visit.identified.method inv.conclusion).reply
  disposed : ∀ {instant answer}, inv.trace.ending = some (instant, .returned answer) →
    Race.Disposed instant answer inv.conclusion (server.returnsLate start visit)

/-- What the traffic has written so far balances with the visits that have arrived. -/
structure Traffic.Balances (server : Server) (arrived : List Visit) (t : Traffic) : Prop where
  /-- Each visit was dismissed, or has its flight. -/
  visits_perm : arrived.Perm t.visits
  balanced : Balanced t.entries (t.answers server)
    (t.inFlight.countP fun p => p.1.race.returnsUnheard p.1.history)
  course : ∀ p ∈ t.inFlight, p.1.race.course p.1.leaves p.1.history = some p.2
  reply_eq : ∀ p ∈ t.inFlight, ∀ {conclusion}, p.2.waiter.conclusion? = some conclusion →
    p.1.reply? p.2 = some (deliver p.1.visit
      (p.1.handler.conclude p.1.visit.identified.method conclusion).reply)
  /-- The exception is a client that leaves in the very instant in which its result comes. -/
  disposed : ∀ p ∈ t.inFlight, ∀ {conclusion}, p.2.waiter.conclusion? = some conclusion →
    ∀ {instant answer}, p.1.race.endingIn p.1.history = some (instant, .returned answer) →
      Race.Disposed instant answer conclusion (p.1.race.returnsUnheard p.1.history) ∨
        Race.Missed p.1.leaves instant conclusion (p.1.race.returnsUnheard p.1.history)

theorem Traffic.Sound.balances (h : t.Sound server) (hbooked : t.Booked server)
    {arrived : List Visit} (hvisits : arrived.Perm t.visits) : t.Balances server arrived where
  visits_perm := hvisits
  balanced := by
    rw [Booked, h.dropped_eq] at hbooked
    exact hbooked.balanced
  course p hp := (h.flying p hp).course
  reply_eq p _ conclusion hover := by
    rw [Flight.reply?, Flight.handling?, hover]
    rfl
  disposed p hp conclusion hover instant answer hreturned :=
    Race.disposed_of_course (h.flying p hp).course hreturned hover

/-- A visit of a client that goes away at once. -/
def departingVisit : Visit :=
  { visitTo "/i" with patience := some 0 }

theorem reach_departingVisit :
    ∃ forwarded, pairServer.reach departingVisit = some (idleHandler, forwarded) := by
  obtain ⟨forwarded, hreach⟩ := reach_pairServer.2
  exact ⟨forwarded, hreach⟩

/-- Every result that came for a wait that is over is disposed of. -/
def Traffic.LosesNothing (t : Traffic) : Prop :=
  ∀ p ∈ t.inFlight, ∀ {conclusion}, p.2.waiter.conclusion? = some conclusion →
    ∀ {instant answer}, p.1.race.endingIn p.1.history = some (instant, .returned answer) →
      Race.Disposed instant answer conclusion (p.1.race.returnsUnheard p.1.history)

end Server

end Gateway

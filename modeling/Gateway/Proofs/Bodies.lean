/-
Module: Gateway.Proofs.Bodies
Layer: Proofs
Purpose: What is read of a streamed body.  Reading part by part agrees with reading byte by byte
  (`Http.collectBody_eq_readBytes`), so how the bytes are cut into parts makes no difference.  Over
  whole streams (`Http.collectBody_append`) this says which of the two ways to stop comes first: the
  length limit if the parts before the first failure pass it, and else the failure.
Main exports: Http.arrivals, Http.readBytes, Http.collectBody_eq_readBytes,
  Http.collectBody_append, Http.collectBody_data, Http.collectBody_eq_ok_iff,
  Http.collectBody_eq_error_iff, Endpoint.AllowList.body_read_within_limit
-/
import Mathlib.Algebra.GroupWithZero.Nat
import Gateway.Proofs.Forwarding

namespace Gateway

namespace Http

/-! ### Byte by byte -/

/-- What arrives on a stream, byte by byte and failure by failure. -/
def arrivals (body : List BodyPart) : List (UInt8 ⊕ String) :=
  body.flatMap fun part =>
    match part with
    | .data bytes => bytes.map .inl
    | .failure reason => [.inr reason]

/-- Reads what arrives, at most `limit` bytes. -/
def readBytes (limit : Nat) : List (UInt8 ⊕ String) → Except BodyFault (List UInt8)
  | [] => .ok []
  | .inr reason :: _ => .error (.broken reason)
  | .inl byte :: rest =>
    if limit = 0 then .error .tooLong else (byte :: ·) <$> readBytes (limit - 1) rest

/-- Many bytes are read at once if they keep within the limit. -/
theorem readBytes_append (limit : Nat) (bytes : List UInt8) (rest : List (UInt8 ⊕ String)) :
    readBytes limit (bytes.map .inl ++ rest) =
      if limit < bytes.length then .error .tooLong
      else (bytes ++ ·) <$> readBytes (limit - bytes.length) rest := by
  induction bytes generalizing limit with
  | nil =>
      have hid : (([] : List UInt8) ++ ·) = id := rfl
      rw [List.map_nil, List.nil_append, List.length_nil, if_neg (Nat.not_lt_zero _), Nat.sub_zero,
        hid, id_map]
  | cons byte bytes ih =>
      rw [List.map_cons, List.cons_append, readBytes, ih]
      cases limit with
      | zero => rw [if_pos rfl, List.length_cons, if_pos (Nat.succ_pos _)]
      | succ limit =>
          simp only [List.length_cons, Nat.succ_lt_succ_iff, Nat.succ_sub_succ, Nat.sub_zero,
            Nat.succ_ne_zero, if_false]
          split
          · rfl
          · rw [← comp_map]
            rfl

/-- Parts are read as their bytes are. -/
theorem collectBody_eq_readBytes (limit : Nat) (body : List BodyPart) :
    collectBody limit body = readBytes limit (arrivals body) := by
  induction body generalizing limit with
  | nil => rfl
  | cons part body ih =>
      cases part with
      | failure reason => rfl
      | data bytes =>
          have harrivals : arrivals (.data bytes :: body) = bytes.map .inl ++ arrivals body := rfl
          rw [collectBody, ih, harrivals, readBytes_append]

theorem arrivals_data (chunks : List (List UInt8)) (rest : List BodyPart) :
    arrivals (chunks.map .data ++ rest) = chunks.flatten.map .inl ++ arrivals rest := by
  induction chunks with
  | nil => rfl
  | cons bytes chunks ih =>
      have hfirst : arrivals (.data bytes :: (chunks.map .data ++ rest)) =
          bytes.map .inl ++ arrivals (chunks.map .data ++ rest) := rfl
      rw [List.map_cons, List.cons_append, hfirst, ih, List.flatten_cons, List.map_append,
        List.append_assoc]

/-! ### Part by part -/

/-- Parts that keep within the limit are read before what follows them. -/
theorem collectBody_append (limit : Nat) (chunks : List (List UInt8)) (rest : List BodyPart) :
    collectBody limit (chunks.map .data ++ rest) =
      if limit < (chunks.map List.length).sum then .error .tooLong
      else (chunks.flatten ++ ·) <$> collectBody (limit - (chunks.map List.length).sum) rest := by
  rw [collectBody_eq_readBytes, arrivals_data, readBytes_append, List.length_flatten,
    collectBody_eq_readBytes]

/-- A stream that does not break is read to its end if all of it keeps within the limit. -/
theorem collectBody_data (limit : Nat) (parts : List (List UInt8)) :
    collectBody limit (parts.map .data) =
      if parts.flatten.length ≤ limit then .ok parts.flatten else .error .tooLong := by
  have hread := collectBody_append limit parts []
  rw [List.append_nil, ← List.length_flatten] at hread
  rw [hread]
  by_cases hfits : parts.flatten.length ≤ limit
  · rw [if_pos hfits, if_neg (Nat.not_lt.2 hfits)]
    exact congrArg Except.ok (List.append_nil _)
  · rw [if_neg hfits, if_pos (Nat.not_le.1 hfits)]

/-- A stream ends, or it breaks after some parts. -/
theorem exists_chunks (body : List BodyPart) : ∃ chunks : List (List UInt8),
    body = chunks.map .data ∨
      ∃ reason rest, body = chunks.map .data ++ .failure reason :: rest := by
  induction body with
  | nil => exact ⟨[], .inl rfl⟩
  | cons part body ih =>
      cases part with
      | failure reason => exact ⟨[], .inr ⟨reason, body, rfl⟩⟩
      | data bytes =>
          obtain ⟨chunks, rfl | ⟨reason, rest, rfl⟩⟩ := ih
          · exact ⟨bytes :: chunks, .inl rfl⟩
          · exact ⟨bytes :: chunks, .inr ⟨reason, rest, rfl⟩⟩

/-- A stream that breaks is refused with what comes first: too many bytes, or the failure. -/
theorem collectBody_failure (limit : Nat) (chunks : List (List UInt8)) (reason : String)
    (rest : List BodyPart) : collectBody limit (chunks.map .data ++ .failure reason :: rest) =
      if limit < (chunks.map List.length).sum then .error .tooLong
      else .error (.broken reason) := by
  rw [collectBody_append]
  rfl

/-- A body is read exactly if no part of it is a failure and its parts keep within the limit. -/
theorem collectBody_eq_ok_iff {limit : Nat} {body : List BodyPart} {bytes : List UInt8} :
    collectBody limit body = .ok bytes ↔ ∃ chunks : List (List UInt8),
      body = chunks.map .data ∧ (chunks.map List.length).sum ≤ limit ∧ bytes = chunks.flatten := by
  constructor
  · intro h
    obtain ⟨chunks, rfl | ⟨reason, rest, rfl⟩⟩ := exists_chunks body
    · rw [collectBody_data, List.length_flatten] at h
      split at h
      · rename_i hfits
        exact ⟨chunks, rfl, hfits, (Except.ok.inj h).symm⟩
      · cases h
    · rw [collectBody_failure] at h
      split at h <;> cases h
  · rintro ⟨chunks, rfl, hfits, rfl⟩
    rw [collectBody_data, List.length_flatten, if_pos hfits]

/-- A body is refused as too long if the parts up to some place pass the limit and none of them is a
failure, and as broken if a failure comes before that. -/
theorem collectBody_eq_error_iff {limit : Nat} {body : List BodyPart} {fault : BodyFault} :
    collectBody limit body = .error fault ↔ ∃ (chunks : List (List UInt8)) (rest : List BodyPart),
      body = chunks.map .data ++ rest ∧
      (limit < (chunks.map List.length).sum ∧ fault = .tooLong ∨
        (chunks.map List.length).sum ≤ limit ∧
          ∃ reason after, rest = .failure reason :: after ∧ fault = .broken reason) := by
  constructor
  · intro h
    obtain ⟨chunks, rfl | ⟨reason, rest, rfl⟩⟩ := exists_chunks body
    · rw [collectBody_data, List.length_flatten] at h
      split at h
      · cases h
      · rename_i hlong
        cases h
        exact ⟨chunks, [], (List.append_nil _).symm, .inl ⟨Nat.not_le.1 hlong, rfl⟩⟩
    · rw [collectBody_failure] at h
      refine ⟨chunks, _, rfl, ?_⟩
      split at h
      · rename_i hlong
        cases h
        exact .inl ⟨hlong, rfl⟩
      · rename_i hfits
        cases h
        exact .inr ⟨Nat.not_lt.1 hfits, reason, rest, rfl, rfl⟩
  · rintro ⟨chunks, rest, rfl, ⟨hlong, rfl⟩ | ⟨hfits, reason, after, rfl, rfl⟩⟩
    · rw [collectBody_append, if_pos hlong]
    · rw [collectBody_failure, if_neg (Nat.not_lt.2 hfits)]

end Http

namespace Endpoint.AllowList

open Http (BodyPart arrivals)

theorem forward_eq_error_iff {allowed : AllowList} {request : Http.Request}
    {error : Pipeline.Error} : allowed.forward request = .error error ↔
      ∃ fault, Http.collectBody allowed.maxBodySize request.body = .error fault ∧
        error = .body fault := by
  unfold forward
  cases Http.collectBody allowed.maxBodySize request.body with
  | error fault => simp [eq_comm]
  | ok bytes => simp

/-- A request is forwarded exactly if its body has no failure in it and keeps within the limit, and
its body is then all that arrived.  If the parts before the first failure pass the limit, it is
refused as too long, and if there is a failure before that, with that failure.  How the same bytes
are cut into parts makes no difference. -/
theorem body_read_within_limit (allowed : AllowList) (request : Http.Request) :
    (∀ forwarded, allowed.forward request = .ok forwarded ↔
      ∃ chunks : List (List UInt8), request.body = chunks.map .data ∧
        (chunks.map List.length).sum ≤ allowed.maxBodySize ∧
        forwarded = {
          method := request.method.text
          path := request.uri.path
          query := allowed.forwardQuery request.uri.query
          headers := allowed.forwardHeaders request.headers
          body := chunks.flatten }) ∧
    (∀ error, allowed.forward request = .error error ↔
      ∃ (chunks : List (List UInt8)) (rest : List BodyPart),
        request.body = chunks.map .data ++ rest ∧
        (allowed.maxBodySize < (chunks.map List.length).sum ∧ error = .body .tooLong ∨
          (chunks.map List.length).sum ≤ allowed.maxBodySize ∧
            ∃ reason after, rest = .failure reason :: after ∧ error = .body (.broken reason))) ∧
    ∀ body, arrivals body = arrivals request.body →
      allowed.forward { request with body } = allowed.forward request := by
  refine ⟨fun forwarded => ?_, fun error => ?_, fun body hsame => ?_⟩
  · rw [forward_eq_ok_iff, Http.collectBody_eq_ok_iff]
    constructor
    · rintro ⟨⟨chunks, hbody, hfits, hread⟩, hmethod, hpath, hquery, hheaders⟩
      refine ⟨chunks, hbody, hfits, ?_⟩
      rw [← hmethod, ← hpath, ← hquery, ← hheaders, ← hread]
    · rintro ⟨chunks, hbody, hfits, rfl⟩
      exact ⟨⟨chunks, hbody, hfits, rfl⟩, rfl, rfl, rfl, rfl⟩
  · simp only [forward_eq_error_iff, Http.collectBody_eq_error_iff]
    constructor
    · rintro ⟨fault, ⟨chunks, rest, hbody, ⟨hlong, rfl⟩ | ⟨hfits, reason, after, hrest, rfl⟩⟩, rfl⟩
      · exact ⟨chunks, rest, hbody, .inl ⟨hlong, rfl⟩⟩
      · exact ⟨chunks, rest, hbody, .inr ⟨hfits, reason, after, hrest, rfl⟩⟩
    · rintro ⟨chunks, rest, hbody, ⟨hlong, rfl⟩ | ⟨hfits, reason, after, hrest, rfl⟩⟩
      · exact ⟨_, ⟨chunks, rest, hbody, .inl ⟨hlong, rfl⟩⟩, rfl⟩
      · exact ⟨_, ⟨chunks, rest, hbody, .inr ⟨hfits, reason, after, hrest, rfl⟩⟩, rfl⟩
  · have hread : Http.collectBody allowed.maxBodySize body =
        Http.collectBody allowed.maxBodySize request.body := by
      rw [Http.collectBody_eq_readBytes, Http.collectBody_eq_readBytes, hsame]
    rw [forward, forward, hread]

/-- Forwards no names, and bodies of at most three bytes. -/
def threeBytes : AllowList :=
  ofNames [] [] 3

/-- A request with a body. -/
def upload (body : List BodyPart) : Http.Request where
  method := .get
  uri := { (default : Http.Uri) with path := "/upload" }
  headers := []
  body := body

/-- A body as long as the limit is read, empty parts and all; one byte more is too much, though the
stream breaks later; and a stream that breaks at the limit is broken, however it was cut. -/
theorem upload_at_limit :
    (∃ forwarded, threeBytes.forward (upload [.data [1, 2], .data [], .data [3], .data []]) =
        .ok forwarded ∧ forwarded.body = [1, 2, 3]) ∧
    threeBytes.forward (upload [.data [1, 2], .data [3, 4], .failure "reset"]) =
      .error (.body .tooLong) ∧
    threeBytes.forward (upload [.data [1, 2, 3], .failure "reset", .data [4]]) =
      .error (.body (.broken "reset")) ∧
    threeBytes.forward (upload [.data [1], .data [2, 3], .failure "reset", .data [4]]) =
      .error (.body (.broken "reset")) := by
  have hbroken : threeBytes.forward (upload [.data [1, 2, 3], .failure "reset", .data [4]]) =
      .error (.body (.broken "reset")) :=
    ((body_read_within_limit threeBytes _).2.1 _).2
      ⟨[[1, 2, 3]], _, rfl, .inr ⟨by decide, "reset", _, rfl, rfl⟩⟩
  refine ⟨⟨_, ((body_read_within_limit threeBytes _).1 _).2
    ⟨[[1, 2], [], [3], []], rfl, by decide, rfl⟩, rfl⟩, ?_, hbroken, ?_⟩
  · exact ((body_read_within_limit threeBytes _).2.1 _).2
      ⟨[[1, 2], [3, 4]], _, rfl, .inl ⟨by decide, rfl⟩⟩
  · rw [← hbroken]
    exact (body_read_within_limit threeBytes
      (upload [.data [1, 2, 3], .failure "reset", .data [4]])).2.2
      [.data [1], .data [2, 3], .failure "reset", .data [4]] rfl

end Endpoint.AllowList

end Gateway

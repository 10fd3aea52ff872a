/-
Module: Gateway.Route.Router
Layer: Route
Purpose: The router: which route texts it takes together, and where it sends a path.
Main exports: Route.Token, Route.readRoute, Route.conflict, Route.Router, Route.Router.insert,
  Route.Router.find?
-/
import Gateway.Route.Pattern

namespace Gateway.Route

/-!
The router reads routes character by character and knows nothing of segments: a route is a text with
parameters in it, and a parameter takes all characters up to the next slash.  Doubled braces stand
for the brace itself.  Routes are refused when a path could be led into two kinds of parameter at
one place.

A path is followed one character at a time.  Characters go before parameters and parameters before a
catch-all, and whatever fails further on is given up in favour of the next choice.
-/

/-- A piece of a route. -/
inductive Token where
  | char (c : Char)
  /-- Takes all characters up to the next slash, of which there may be none. -/
  | param
  /-- Takes at least one character, up to the end. -/
  | catchAll
deriving Repr, DecidableEq

/-- Why a router refuses a route. -/
inductive RouteFault where
  | noSlash
  | reservedMark
  | badParam
  | partOfSegment
  | catchAllNotLast
  | tooManyParams
  | conflict
deriving Repr, DecidableEq

/-- The rest of a route after the brace that closes a name; a name holds no slash and no asterisk.
-/
def skipName? : List Char → Option (List Char)
  | [] => none
  | '}' :: '}' :: rest => skipName? rest
  | '}' :: rest => some rest
  | c :: rest => if c == '*' || c == '/' then none else skipName? rest

theorem length_of_skipName? {text rest : List Char} (h : skipName? text = some rest) :
    rest.length < text.length := by
  fun_induction skipName? text with
  | case1 => simp at h
  | case2 r ih => have := ih h; simp only [List.length_cons]; omega
  | case3 r => simp_all
  | case4 c r => simp at h
  | case5 c r _ _ _ ih => have := ih h; simp only [List.length_cons]; omega

/-- Reads a parameter after its opening brace.  An asterisk in front makes it a catch-all, which
ends the route; any other parameter is followed by a slash or by nothing. -/
def readParam (text : List Char) :
    Except RouteFault (Token × { rest : List Char // rest.length < text.length }) :=
  match text with
  | [] => .error .badParam
  | '}' :: _ => .error .badParam
  | first :: name =>
    if first == '*' && name.head? == some '}' then .error .badParam
    else
      match h : skipName? name with
      | none => .error .badParam
      | some rest =>
        have shorter : rest.length < (first :: name).length := by
          have := length_of_skipName? h
          simp only [List.length_cons]; omega
        if first == '*' then
          if rest.isEmpty then .ok (.catchAll, ⟨rest, shorter⟩) else .error .catchAllNotLast
        else if rest.isEmpty || rest.head? == some '/' then .ok (.param, ⟨rest, shorter⟩)
        else .error .partOfSegment

/-- Reads the pieces of a route. -/
def readTokens : List Char → Except RouteFault (List Token)
  | [] => .ok []
  | '{' :: '{' :: rest => (.char '{' :: ·) <$> readTokens rest
  | '}' :: '}' :: rest => (.char '}' :: ·) <$> readTokens rest
  | '}' :: _ => .error .badParam
  | '{' :: text =>
    match readParam text with
    | .error fault => .error fault
    | .ok (token, ⟨rest, _⟩) => (token :: ·) <$> readTokens rest
  | c :: rest => (.char c :: ·) <$> readTokens rest
termination_by text => text.length
decreasing_by all_goals simp only [List.length_cons] at *; omega

/-- The most parameters, catch-alls apart, that a route may have. -/
def mostParams : Nat := 25

/-- Whether a segment opens with a mark that is kept for captures. -/
def isReserved (segment : List Char) : Bool :=
  segment.head? == some ':' || segment.head? == some '*'

/-- Reads a route. -/
def readRoute (text : String) : Except RouteFault (List Token) :=
  if text.toList.head? != some '/' then .error .noSlash
  else if (splitOn '/' text.toList).any isReserved then .error .reservedMark
  else
    match readTokens text.toList with
    | .error fault => .error fault
    | .ok tokens =>
      if mostParams < tokens.count .param then .error .tooManyParams else .ok tokens

/-- Whether two routes cannot stand in one router: they are the same, or at some place, everything
before it being the same, a catch-all meets a parameter or another catch-all. -/
def conflict : List Token → List Token → Bool
  | [], [] => true
  | .char a :: s, .char b :: t => a == b && conflict s t
  | .param :: s, .param :: t => conflict s t
  | .param :: _, .catchAll :: _ => true
  | .catchAll :: _, .param :: _ => true
  | .catchAll :: _, .catchAll :: _ => true
  | _, _ => false

/-! ### Following a path -/

variable {α : Type}

/-- Routes that have been followed for a while: what is left of each, and where it leads. -/
abbrev Branches (α : Type) := List (List Token × α)

/-- The branches that go on with a piece, after it. -/
def Branches.after (branches : Branches α) (token : Token) : Branches α :=
  branches.filterMap fun b =>
    match b with
    | (t :: rest, target) => if t = token then some (rest, target) else none
    | ([], _) => none

/-- Where a branch leads that ends here. -/
def Branches.here? (branches : Branches α) : Option α :=
  (branches.find? (·.1.isEmpty)).map (·.2)

/-- Whether a character is no slash. -/
def inSegment (c : Char) : Bool :=
  c != '/'

/-- Follows a path.  A parameter in front of a slash may take nothing; one at the end may not,
because then there is no character left to lead into it. -/
def Branches.follow (branches : Branches α) : List Char → Option α
  | [] => branches.here?
  | c :: rest =>
    if branches.isEmpty then none
    else
      ((branches.after (.char c)).follow rest).or <|
        (if inSegment c then (branches.after .param).follow (rest.dropWhile inSegment)
        else ((branches.after .param).after (.char c)).follow rest).or
          (branches.after .catchAll).here?
termination_by path => path.length
decreasing_by
  · simp
  · have := (List.dropWhile_sublist inSegment (l := rest)).length_le
    simp only [List.length_cons]; omega
  · simp

/-! ### The router -/

/-- Routes that stand together, and where each leads. -/
structure Router (α : Type) where
  branches : Branches α
deriving Repr

namespace Router

/-- A router without routes. -/
def empty : Router α := ⟨[]⟩

/-- Adds a route. -/
def insert (router : Router α) (text : String) (target : α) : Except RouteFault (Router α) :=
  match readRoute text with
  | .error fault => .error fault
  | .ok tokens =>
    if router.branches.any fun b => conflict b.1 tokens then .error .conflict
    else .ok ⟨router.branches ++ [(tokens, target)]⟩

/-- The router of a list of routes, added one after the other. -/
def ofList (routes : List (String × α)) : Except RouteFault (Router α) :=
  routes.foldlM (fun router route => router.insert route.1 route.2) empty

/-- Where a path leads. -/
def find? (router : Router α) (path : String) : Option α :=
  router.branches.follow path.toList

end Router

end Gateway.Route

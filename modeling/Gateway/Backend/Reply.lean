/-
Module: Gateway.Backend.Reply
Layer: Backend
Purpose: Reading what the server behind an endpoint replied.
Main exports: Backend.Reply, Backend.shape, Backend.read
-/
import Gateway.Config.Schema
import Gateway.Http.Framing
import Gateway.Pipeline

namespace Gateway.Backend

/-!
A reply counts as data if its status stands for success, its body keeps within the limit, and the
body is one JSON value.  The first of these that fails is the error, and then there is no data at
all: a backend never yields part of a reply.
-/

/-- What a backend server replied. -/
structure Reply where
  status : Nat
  body : List Http.BodyPart
deriving Repr, DecidableEq

/-- The key under which a value is filed that is no mapping of its own. -/
def collectionKey : String := "collection"

/-- The data mapping of a value: the value itself if it is an object, unless every value is to be
filed under the collection key. -/
def shape (isCollection : Bool) : Json → Json.Fields
  | .object fields =>
    if isCollection then [(collectionKey, .object fields)] else fields
  | value => [(collectionKey, value)]

/-- Reads a reply. -/
def read (backend : Config.Backend) (reply : Reply) : Except Pipeline.Error Pipeline.Payload :=
  if !Http.isSuccess reply.status then .error (.backendStatus reply.status)
  else
    match Http.collectBody backend.maxResponseBytes reply.body with
    | .error fault => .error (.body fault)
    | .ok bytes =>
      match Json.read bytes with
      | .error refusal => .error (.decode refusal)
      | .ok value => .ok ⟨true, shape backend.isCollection value⟩

end Gateway.Backend

import Campaign.Value.Basic
/-!
# Refusals

A request that cannot be served is refused: a `Refusal` has a kind, which fixes its code and its
status number, a text, and perhaps details.
-/
namespace Campaign

/-- Why a request is refused. -/
inductive RefusalKind where
  | internal
  | badRequest
  | notFound
  | conflict
  deriving DecidableEq

namespace RefusalKind

/-- The status number of an answer. -/
def status : RefusalKind → Nat
  | internal => 500
  | badRequest => 400
  | notFound => 404
  | conflict => 409

/-- The code in the body of an answer. -/
def code : RefusalKind → String
  | internal => "INTERNAL_ERROR"
  | badRequest => "BAD_REQUEST"
  | notFound => "NOT_FOUND"
  | conflict => "CONFLICT"

end RefusalKind

/-- A refused request. -/
structure Refusal where
  kind : RefusalKind
  message : String
  /-- What the text does not say; null where there is nothing. -/
  details : Value := .null

namespace Refusal

/-- The refusal as the body of an answer. -/
def body (r : Refusal) : Value :=
  let details := match r.details with
    | .null => []
    | v => [("details", v)]
  .object [("error",
    .object ([("code", .text r.kind.code), ("message", .text r.message)] ++ details))]

end Refusal

end Campaign

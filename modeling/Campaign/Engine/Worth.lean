import Campaign.Engine.Turn
/-!
# What is still to be wanted

A run that is live has walks that are still to go on: its first, those that wait for a reply, and
those behind its delays.  `Engine.duties` are the stops from which each of them will set out.  They
are worth what they can bring at most; so an engine has a worth (`Engine.worth`), which bounds what
it can still want of the outside as long as no other run starts.
-/
namespace Campaign

namespace Flow

/-- The stops at which the first walk of a run sets out. -/
def roots (f : Flow) : List Stop :=
  match f.triggers with
  | [] => []
  | trigger :: _ => f.behind trigger.id [trigger.id] .everywhere

/-- The stops that a walk has still to come to when its message is answered. -/
def after (f : Flow) (sd : Sending) : List Stop :=
  f.behind sd.node.id sd.path .everywhere ++ sd.rest

/-- The stops behind a delay. -/
def beyond (f : Flow) (c : Continuation) : List Stop := f.behind c.node.id c.path .everywhere

/-- What the stops of a walk are worth: each can have a delay, and a walk can end or wait for the
reply to a message. -/
def worth (f : Flow) (stops : List Stop) : Nat := 2 * f.work stops + 1

end Flow

namespace Engine

/-- The walks of a run that are still to go on, each with the stops from which it will. -/
def duties (e : Engine) (run : String) (f : Flow) : List (List Stop) :=
  List.replicate (e.unstarted.count run) f.roots ++
    ((e.sending.filter fun entry => entry.2.run == run).map (fun entry => f.after entry.2) ++
      (e.timers.pending.filter fun t => t.run == run).map fun t => f.beyond t.what)

/-- What the walks of a live run are worth that are still to go on. -/
def worthOf (e : Engine) (run : String) : Nat :=
  match e.live.get? run with
  | some l => (e.duties run l.flow).foldr (fun stops n => l.flow.worth stops + n) 0
  | none => 0

/-- A bound on what an engine wants of the outside and can still want: the end of every live run is
told once, and its walks bring no more than they are worth. -/
@[irreducible] def worth (e : Engine) : Nat :=
  e.effects.length + e.liveRuns.foldr (fun run n => 1 + e.worthOf run + n) 0

end Engine

end Campaign

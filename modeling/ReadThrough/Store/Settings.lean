import ReadThrough.Duration
import ReadThrough.Failure

/-! # Store settings and times to live

* `Settings` is what a cache hands to its store;
* a `Jitter` supplies one factor for each write, so that entries written together do not expire
  together;
* `Settings.lifetime` and `Settings.boundedLifetime` are the time to live of the next entry.
-/

namespace ReadThrough

/-- Why a call to a store ends without its answer: it failed, or the caller's work broke down. -/
inductive Fault
  | failed (failure : Failure)
  | brokeDown
deriving DecidableEq

/-- What a cache tells its store. -/
structure Settings where
  /-- The base time to live; zero means that entries do not expire. -/
  ttl : Duration
  debug : Bool
  /-- What the cache's keys lie under. -/
  scope : String
deriving DecidableEq

/-- Factors in the order in which they are drawn, and how many have been. -/
structure Jitter where
  factor : Nat → Factor
  drawn : Nat := 0

namespace Jitter

def next (jitter : Jitter) : Factor := jitter.factor jitter.drawn

def advance (jitter : Jitter) : Jitter := { jitter with drawn := jitter.drawn + 1 }

def steady : Jitter := ⟨fun _ => Factor.one, 0⟩

end Jitter

/-- A base time to live scaled by a drawn factor. Work breaks down when the result is no
duration. -/
def scaledTtl (base : Duration) (factor : Factor) : Except Fault Duration :=
  match base.scale? factor with
  | some ttl => .ok ttl
  | none => .error .brokeDown

namespace Settings

/-- The time to live of the next entry; none when entries do not expire. -/
def lifetime (settings : Settings) (factor : Factor) : Except Fault (Option Duration) :=
  if settings.ttl.isZero then .ok none
  else (scaledTtl settings.ttl factor).map some

/-- The base time to live on a medium where every entry expires. -/
def boundedBase (settings : Settings) : Duration :=
  if settings.ttl.isZero then .oneDay else settings.ttl

/-- The time to live of the next entry on a medium where every entry expires. -/
def boundedLifetime (settings : Settings) (factor : Factor) : Except Fault Duration :=
  scaledTtl settings.boundedBase factor

def debugText (settings : Settings) : String :=
  Text.recordText "StoreSettings" [
    ("ttl", settings.ttl.text),
    ("debug", Text.boolText settings.debug),
    ("scope", Text.quoted settings.scope)]

end Settings

end ReadThrough

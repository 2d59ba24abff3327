import CodeSurvey.Json.Order

/-!
# A cache of reports

A cache holds values under keys, each with the time at which it was stored, ordered from the one
that has gone unused the longest. A value is given out while it is not older than the time to live;
storing a new key in a full cache drops the entry in front. Limits and times are kept as they are
given, and only where one is needed does it have to be a number.
-/

namespace CodeSurvey

/-- Why a cache cannot do what it is asked for. -/
inductive CacheFault where
  /-- It is full without holding anything. -/
  | nothingToDrop
  /-- A limit or a time is of no use. -/
  | operands (f : OperandFault)
deriving DecidableEq, Repr

namespace CacheFault

/-- The class of a fault. -/
def className : CacheFault → String
  | nothingToDrop => "KeyError"
  | operands f => f.className

/-- The message of a fault. -/
def message : CacheFault → String
  | nothingToDrop => "'dictionary is empty'"
  | operands f => f.message

end CacheFault

/-- A stored value. -/
structure CacheEntry (κ α : Type) where
  key : κ
  value : α
  storedAt : Json

/-- A cache, with its entries from least to most recently used. -/
structure Cache (κ α : Type) where
  maxSize : Json
  timeToLive : Json
  entries : List (CacheEntry κ α)
  hits : Nat
  misses : Nat

namespace Cache

variable {κ α : Type} [DecidableEq κ]

/-- A cache with nothing in it. -/
def empty (maxSize timeToLive : Json) : Cache κ α :=
  ⟨maxSize, timeToLive, [], 0, 0⟩

/-- The number of entries. -/
def size (c : Cache κ α) : Nat :=
  c.entries.length

/-- The keys, from least to most recently used. -/
def keys (c : Cache κ α) : List κ :=
  c.entries.map CacheEntry.key

/-- The entry of a key. -/
def entry? (c : Cache κ α) (key : κ) : Option (CacheEntry κ α) :=
  c.entries.find? (·.key = key)

/-- The entries of all other keys. -/
def others (c : Cache κ α) (key : κ) : List (CacheEntry κ α) :=
  c.entries.filter (·.key ≠ key)

/-- Whether an entry is older than the time to live. -/
def expired (c : Cache κ α) (now : Json) (e : CacheEntry κ α) : Except OperandFault Bool :=
  match now.minus e.storedAt with
  | .error f => .error f
  | .ok age => Json.compare .more age c.timeToLive

/-- Looks a key up. A hit becomes the most recently used entry and keeps its time; an entry that is
too old is dropped. -/
def get (c : Cache κ α) (now : Json) (key : κ) : Except CacheFault (Option α × Cache κ α) :=
  match c.entry? key with
  | none => .ok (none, { c with misses := c.misses + 1 })
  | some e =>
    match c.expired now e with
    | .error f => .error (.operands f)
    | .ok true => .ok (none, { c with entries := c.others key, misses := c.misses + 1 })
    | .ok false =>
      .ok (some e.value, { c with entries := c.others key ++ [e], hits := c.hits + 1 })

/-- The entries with one more, the most recently used. -/
def store (entries : List (CacheEntry κ α)) (now : Json) (key : κ) (value : α) :
    List (CacheEntry κ α) :=
  entries.filter (·.key ≠ key) ++ [⟨key, value, now⟩]

/-- Whether a new key does not fit. -/
def full (c : Cache κ α) : Except OperandFault Bool :=
  Json.compare .atLeast (.nat c.size) c.maxSize

/-- Stores a value. A new key in a full cache takes the place of the least recently used entry;
there is none in a cache that is full without holding anything. -/
def put (c : Cache κ α) (now : Json) (key : κ) (value : α) : Except CacheFault (Cache κ α) :=
  match c.full with
  | .error f => .error (.operands f)
  | .ok full =>
    if full && (c.entry? key).isNone then
      match c.entries with
      | [] => .error .nothingToDrop
      | _ :: rest => .ok { c with entries := store rest now key value }
    else .ok { c with entries := store c.entries now key value }

/-- The cache without its entries, counting anew. -/
def clear (c : Cache κ α) : Cache κ α :=
  empty c.maxSize c.timeToLive

/-- The part of the look-ups that were hits, to three places; zero if there were none. -/
def hitRate (c : Cache κ α) : Json :=
  if c.hits + c.misses = 0 then .int 0
  else
    .real (.ofDecimal (.thousandths ((Binary.nearest c.hits (c.hits + c.misses)).scaled 1000)))

/-- The counts of a cache as a document. -/
def statistics (c : Cache κ α) : Json :=
  .obj [("size", .nat c.size), ("max_size", c.maxSize), ("hits", .nat c.hits),
    ("misses", .nat c.misses), ("hit_rate", c.hitRate), ("ttl_seconds", c.timeToLive)]

end Cache

end CodeSurvey

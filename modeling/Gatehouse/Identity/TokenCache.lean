import Gatehouse.Identity.Provider

/-!
# Accepted tokens

What a provider said of an accepted token is kept for a minute at most, and not beyond the end of
the token. Times are nanoseconds of a clock that never goes back; the end of a token is in whole
seconds since 1970.

* `TokenCache.get?` finds what was kept and is not over.
* `TokenCache.keep` keeps it; nothing is kept for no time.
-/

namespace Gatehouse.Identity

/-- What is kept of a token, and until when. -/
structure CachedToken where
  record : Record
  expires : Nat

/-- The kept tokens, one entry for each. -/
structure TokenCache where
  entries : List (String × CachedToken) := []

/-- The two clocks of a moment: nanoseconds since 1970, and those of the clock that never goes
back. -/
structure Moment where
  wall : Nat
  steady : Nat

/-- Whole seconds since 1970. -/
def Moment.unix (t : Moment) : Nat := t.wall / 1000000000

namespace TokenCache

/-- The longest time that an entry is kept. -/
def longest : Duration := .ofSecs 60

/-- When there are so many entries, the expired ones are taken away before another comes in. -/
def crowded : Nat := 1024

/-- The number of entries. -/
def size (c : TokenCache) : Nat := c.entries.length

/-- The entry of a token. -/
def entryOf? (c : TokenCache) (token : String) : Option CachedToken :=
  (c.entries.find? (·.1 = token)).map (·.2)

/-- What is kept of a token and is not over. -/
def get? (c : TokenCache) (token : String) (now : Nat) : Option Record :=
  ((c.entryOf? token).filter fun e => now < e.expires).map (·.record)

/-- The entries without that of a token. -/
def erase (c : TokenCache) (token : String) : TokenCache := ⟨c.entries.filter (·.1 ≠ token)⟩

/-- The entries that are not over. -/
def purge (c : TokenCache) (now : Nat) : TokenCache := ⟨c.entries.filter fun e => now < e.2.expires⟩

/-- How long a record may be kept. -/
def lifetime (r : Record) (t : Moment) : Duration :=
  match r.standard.exp with
  | none => longest
  | some exp => if 60 ≤ exp - t.unix then longest else .ofSecs (exp - t.unix)

/-- Keeps what is known of a token. -/
def keep (c : TokenCache) (token : String) (r : Record) (t : Moment) : TokenCache :=
  let time := lifetime r t
  if time.nanos = 0 then c
  else
    let c := if crowded ≤ c.size then c.purge t.steady else c
    ⟨(c.erase token).entries ++ [(token, ⟨r, t.steady + time.nanos⟩)]⟩

end TokenCache

end Gatehouse.Identity

import Templating.Compile
import Templating.Memo

/-!
**A cache of compiled templates.**

A cache keeps compiled templates under their delimiters and their text.  The other settings are
taken to be the same for all templates of a cache.  Every compiled template gets a number of its
own, so that it can be told whether two requests were answered by the same one.

Main definitions:

* `Templating.Cache` — the compiled templates;
* `Templating.Cache.compile` — a compiled template, from the cache if it is there;
* `Templating.Cache.clear` — forget all of them.
-/

set_option autoImplicit false

namespace Templating

/-- What a compiled template is kept under: delimiters and text. -/
abbrev CacheKey := Option (String × String) × String

/-- A compiled template with its number. -/
structure CacheEntry where
  number : Nat
  compiled : Compiled
  deriving Repr

/-- Compiled templates. -/
structure Cache where
  memo : Memo CacheKey CacheEntry := {}
  /-- The number of the next compiled template. -/
  next : Nat := 0
  deriving Repr

namespace Cache

/-- The number of compiled templates. -/
def size (c : Cache) : Nat := c.memo.size

/-- Whether there are none. -/
def isEmpty (c : Cache) : Bool := c.memo.isEmpty

/-- What the template is kept under. -/
def key (settings : Settings) (template : String) : CacheKey :=
  (settings.customDelimiters, template)

/-- The compiled template, from the cache if it is there.  A failure is not kept. -/
def compile (c : Cache) (settings : Settings) (template : String) :
    Except CompileError CacheEntry × Cache :=
  match c.memo.get? (key settings template) with
  | some entry => (.ok entry, c)
  | none =>
      match Templating.compile settings template with
      | .error e => (.error e, c)
      | .ok compiled =>
          let entry : CacheEntry := ⟨c.next, compiled⟩
          (.ok entry, ⟨c.memo.insert (key settings template) entry, c.next + 1⟩)

/-- Forget all compiled templates.  Numbers are not given out again. -/
def clear (c : Cache) : Cache := { c with memo := {} }

end Cache

end Templating

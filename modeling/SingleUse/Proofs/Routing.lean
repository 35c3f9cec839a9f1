import SingleUse.Language
import Mathlib.Data.List.Induction
import Mathlib.Data.List.Nodup
import Mathlib.Tactic.Common

/-!
# Routing

Languages are registered and unregistered one call after the other, and extensions are sent to them.
A registration under a name that is there replaces the language of that name.  The extensions that
only the old language claimed are still sent to the name: they are *left over*, until a language of
that name claims them again.  Unregistering a name ends the routes of the extensions that its
language claims, and leaves those that are left over.

So the routes are those of the extensions that are claimed and of those that are left over.  Where
nothing is left over, what has a route has a language, the language claims what is sent to it, and
what was sent to a language that is gone is free for another one.
-/

namespace SingleUse

/-- Whether a language claims an extension, which is given in lowercase. -/
def Language.Claims (language : Language) (extension : String) : Prop :=
  extension ∈ language.extensions.map Text.lower

instance (language : Language) (extension : String) : Decidable (language.Claims extension) :=
  inferInstanceAs (Decidable (_ ∈ _))

namespace Languages

/-- Whether the language of a name claims an extension. -/
def Claims (ls : Languages) (extension name : String) : Prop :=
  ∃ language, ls.get? name = some language ∧ language.Claims extension

/-- Whether no extension of a language is sent to another one. -/
def Accepts (ls : Languages) (language : Language) : Prop :=
  ∀ extension, language.Claims extension →
    ∀ owner, ls.route? extension = some owner → owner = language.name

theorem name_of_get? {ls : Languages} {name : String} {language : Language}
    (h : ls.get? name = some language) :
  language.name = name
  := by
  simpa using List.find?_some h

/-! ### Registering -/

theorem find?_place (language : Language) (list : List Language) (name : String) :
  (place language list).find? (fun other => other.name = name)
    = if name = language.name then some language
      else list.find? fun other => other.name = name
  := by
  induction list with
  | nil =>
    rw [place, List.find?_cons]
    split <;> simp_all [eq_comm]
  | cons old rest ih =>
    rw [place]
    split
    · rename_i hsame
      simp only [List.find?_cons, hsame]
      split <;> simp_all [eq_comm]
    · rename_i hother
      simp only [List.find?_cons, ih]
      split <;> simp_all [eq_comm]

theorem find?_reroute (extension name : String) (routes : List (String × String))
    (other : String) :
  (reroute extension name routes).find? (fun route => route.1 = other)
    = if other = extension then some (extension, name)
      else routes.find? fun route => route.1 = other
  := by
  rw [reroute, List.find?_append]
  split
  · rename_i hsame
    have hnone : (routes.filter fun route => route.1 ≠ extension).find?
        (fun route => route.1 = other) = none := by
      simp [List.find?_filter, hsame]
    rw [hnone]
    simp [hsame]
  · rename_i hother
    have hkept : (routes.filter fun route => route.1 ≠ extension).find?
        (fun route => route.1 = other) = routes.find? fun route => route.1 = other := by
      rw [List.find?_filter]
      apply congrArg (List.find? · routes)
      funext route
      grind
    rw [hkept]
    simp [Ne.symm hother]

/-- After several extensions are sent to a name, they and no others have new routes. -/
theorem find?_foldl_reroute (extensions : List String) (name : String) (other : String) :
  ∀ routes : List (String × String),
    (extensions.foldl (fun routes extension => reroute (Text.lower extension) name routes)
        routes).find? (fun route => route.1 = other)
      = if other ∈ extensions.map Text.lower then some (other, name)
        else routes.find? fun route => route.1 = other
  := by
  induction extensions with
  | nil => simp
  | cons extension rest ih =>
    intro routes
    rw [List.foldl_cons, ih, find?_reroute, List.map_cons]
    by_cases hrest : other ∈ rest.map Text.lower
    · simp [hrest]
    · by_cases hfirst : other = Text.lower extension
      · simp [hfirst]
      · simp [hrest, hfirst]

theorem nodup_foldl_reroute (extensions : List String) (name : String) :
  ∀ {routes : List (String × String)}, (routes.map (·.1)).Nodup →
    ((extensions.foldl (fun routes extension => reroute (Text.lower extension) name routes)
      routes).map (·.1)).Nodup
  := by
  induction extensions with
  | nil =>
    intro routes h
    exact h
  | cons extension rest ih =>
    intro routes h
    rw [List.foldl_cons]
    apply ih
    rw [reroute, List.map_append, List.map_singleton, ← List.concat_eq_append]
    apply List.Nodup.concat
    · simp
    · apply h.sublist (List.filter_sublist.map _)

variable {ls ls' : Languages} {language : Language} {extension name : String}

/-- A registration goes through if the language is accepted, and is refused otherwise. -/
theorem register_cases (ls : Languages) (language : Language) :
  (ls.Accepts language ∧ ∃ ls', ls.register language = .ok ls')
    ∨ (¬ ls.Accepts language ∧ ∃ error, ls.register language = .error error)
  := by
  unfold register
  simp only
  split
  · rename_i error hconflict
    right
    obtain ⟨raw, hraw, hfound⟩ := List.exists_of_findSome?_eq_some hconflict
    obtain ⟨owner, howner, -⟩ := Option.map_eq_some_iff.mp hfound
    obtain ⟨hroute, hne⟩ := Option.filter_eq_some_iff.mp howner
    constructor
    · intro haccepts
      have hsame := haccepts _ (List.mem_map_of_mem hraw) owner hroute
      simp [hsame] at hne
    · exact ⟨error, rfl⟩
  · rename_i hconflict
    left
    constructor
    · intro extension hclaims owner hroute
      obtain ⟨raw, hraw, rfl⟩ := List.mem_map.mp hclaims
      have hnone := List.findSome?_eq_none_iff.mp hconflict raw hraw
      by_contra hne
      simp [hroute, hne] at hnone
    · exact ⟨_, rfl⟩

theorem exists_register_iff :
  (∃ ls', ls.register language = .ok ls') ↔ ls.Accepts language
  := by
  rcases register_cases ls language with ⟨haccepts, hregister⟩ | ⟨hrefuses, error, hregister⟩
  · apply iff_of_true hregister haccepts
  · apply iff_of_false _ hrefuses
    rintro ⟨ls', hok⟩
    rw [hregister] at hok
    cases hok

theorem register_inv (h : ls.register language = .ok ls') :
  ls'.list = place language ls.list
    ∧ ls'.routes = language.extensions.foldl
        (fun routes extension => reroute (Text.lower extension) language.name routes) ls.routes
  := by
  unfold register at h
  simp only at h
  split at h
  · cases h
  · obtain rfl := Except.ok.inj h
    exact ⟨rfl, rfl⟩

theorem get?_of_register (h : ls.register language = .ok ls') (name : String) :
  ls'.get? name = if name = language.name then some language else ls.get? name
  := by
  rw [get?, (register_inv h).1]
  apply find?_place

theorem route?_of_register (h : ls.register language = .ok ls') (extension : String) :
  ls'.route? extension
    = if language.Claims extension then some language.name else ls.route? extension
  := by
  rw [route?, (register_inv h).2, find?_foldl_reroute, apply_ite (Option.map _)]
  rfl

/-! ### Unregistering -/

theorem unregister_of_none (h : ls.get? name = none) :
  (ls.unregister name).1 = ls
  := by
  rw [unregister, h]

theorem get?_unregister (ls : Languages) (name other : String) :
  (ls.unregister name).1.get? other = if other = name then none else ls.get? other
  := by
  unfold unregister
  split
  · rename_i hnone
    split
    · rename_i hsame
      rw [hsame, hnone]
    · rfl
  · simp only [get?, List.find?_filter]
    split
    · rename_i hsame
      simp [hsame]
    · rename_i hother
      apply congrArg (List.find? · ls.list)
      funext language
      grind

/-- Where each extension has one route, the routes are what extensions are sent to. -/
theorem route?_eq_some_iff (hnodup : (ls.routes.map (·.1)).Nodup) :
  ls.route? extension = some name ↔ (extension, name) ∈ ls.routes
  := by
  simp only [route?, Option.map_eq_some_iff]
  constructor
  · rintro ⟨route, hfind, rfl⟩
    obtain rfl : route.1 = extension := by simpa using List.find?_some hfind
    exact List.mem_of_find?_eq_some hfind
  · intro hmem
    cases hfind : ls.routes.find? fun route => route.1 = extension with
    | none => simpa using List.find?_eq_none.mp hfind _ hmem
    | some route =>
      use route, rfl
      have hsame : route.1 = extension := by simpa using List.find?_some hfind
      have hroute := List.mem_of_find?_eq_some hfind
      rw [List.inj_on_of_nodup_map hnodup hroute hmem hsame]

theorem nodup_unregister (hnodup : (ls.routes.map (·.1)).Nodup) (name : String) :
  ((ls.unregister name).1.routes.map (·.1)).Nodup
  := by
  unfold unregister
  split
  · exact hnodup
  · apply hnodup.sublist (List.filter_sublist.map _)

/-- Unregistering a name ends the routes of the extensions that its language claims. -/
theorem route?_unregister (hnodup : (ls.routes.map (·.1)).Nodup)
    (hget : ls.get? name = some language) (extension owner : String) :
  (ls.unregister name).1.route? extension = some owner ↔
    ls.route? extension = some owner ∧ ¬ (owner = name ∧ language.Claims extension)
  := by
  rw [route?_eq_some_iff (nodup_unregister hnodup name), route?_eq_some_iff hnodup, unregister,
    hget]
  simp [Language.Claims, imp_iff_not_or]

/-- Unregistering sends nothing elsewhere. -/
theorem route?_of_unregister {owner : String} (hnodup : (ls.routes.map (·.1)).Nodup)
    (h : (ls.unregister name).1.route? extension = some owner) :
  ls.route? extension = some owner
  := by
  cases hget : ls.get? name with
  | none => rwa [unregister_of_none hget] at h
  | some language => exact ((route?_unregister hnodup hget extension owner).mp h).1

/-! ### Calls -/

/-- A call that changes the languages. -/
inductive Call where
  | register (language : Language)
  | unregister (name : String)

/-- The languages after a call.  A registration that is refused changes nothing. -/
def perform (ls : Languages) : Call → Languages
  | .register language => (ls.register language).toOption.getD ls
  | .unregister name => (ls.unregister name).1

/-- The languages after several calls. -/
def performAll (ls : Languages) (calls : List Call) : Languages := calls.foldl perform ls

/-- Whether a registration takes an extension away from a name: it is accepted, and replaces a
language that claims the extension by one that does not. -/
def Drops (ls : Languages) (language : Language) (extension name : String) : Prop :=
  ls.Accepts language ∧ language.name = name ∧ ls.Claims extension name
    ∧ ¬ language.Claims extension

/-- Whether after a call the language of a name claims an extension because the call says so. -/
def Renews (ls : Languages) (extension name : String) : Call → Prop
  | .register language =>
    ls.Accepts language ∧ language.name = name ∧ language.Claims extension
  | .unregister _ => False

/-- Whether an extension is *left over* from a name after some calls: a registration took it away
from the name, and since then no language of that name has claimed it. -/
inductive LeftOver (start : Languages) (extension name : String) : List Call → Prop
  | dropped {calls : List Call} {language : Language}
      (hdrops : (start.performAll calls).Drops language extension name) :
    LeftOver start extension name (calls ++ [.register language])
  | kept {calls : List Call} {call : Call} (h : LeftOver start extension name calls)
      (hcall : ¬ (start.performAll calls).Renews extension name call) :
    LeftOver start extension name (calls ++ [call])

variable {start : Languages} {calls : List Call}

theorem performAll_concat (start : Languages) (calls : List Call) (call : Call) :
  start.performAll (calls ++ [call]) = (start.performAll calls).perform call
  := by
  simp [performAll]

theorem not_leftOver_nil :
  ¬ LeftOver start extension name []
  := by
  intro h
  generalize hcalls : ([] : List Call) = calls at h
  cases h <;> simp at hcalls

/-- What is left over after one more call. -/
theorem leftOver_concat_iff {call : Call} :
  LeftOver start extension name (calls ++ [call]) ↔
    (∃ language, call = .register language
        ∧ (start.performAll calls).Drops language extension name)
      ∨ LeftOver start extension name calls
        ∧ ¬ (start.performAll calls).Renews extension name call
  := by
  constructor
  · intro h
    generalize hcalls : calls ++ [call] = all at h
    cases h with
    | dropped hdrops =>
      obtain ⟨rfl, hcall⟩ := List.append_inj' hcalls rfl
      exact .inl ⟨_, List.singleton_inj.mp hcall, hdrops⟩
    | kept h hcall =>
      obtain ⟨rfl, hsame⟩ := List.append_inj' hcalls rfl
      obtain rfl := List.singleton_inj.mp hsame
      exact .inr ⟨h, hcall⟩
  · rintro (⟨language, rfl, hdrops⟩ | ⟨h, hcall⟩)
    · exact .dropped hdrops
    · exact .kept h hcall

/-! ### Where extensions are sent to -/

/-- What is known of the routes after some calls: each extension has at most one, and those that
have one are claimed or left over, but not both. -/
structure Routed (start : Languages) (calls : List Call) : Prop where
  nodup : ((start.performAll calls).routes.map (·.1)).Nodup
  route : ∀ extension name, (start.performAll calls).route? extension = some name ↔
    (start.performAll calls).Claims extension name ∨ LeftOver start extension name calls
  apart : ∀ extension name, LeftOver start extension name calls →
    ¬ (start.performAll calls).Claims extension name

/-- A registration that is refused leaves the routes as they are. -/
theorem Routed.refuse (h : Routed start calls)
    (hrefuses : ¬ (start.performAll calls).Accepts language) :
  Routed start (calls ++ [.register language])
  := by
  have hsame : start.performAll (calls ++ [.register language]) = start.performAll calls := by
    rw [performAll_concat, perform]
    rcases register_cases (start.performAll calls) language with ⟨haccepts, -⟩ | ⟨-, error, herror⟩
    · exact absurd haccepts hrefuses
    · rw [herror]
      rfl
  have hleft : ∀ extension name, LeftOver start extension name (calls ++ [.register language]) ↔
      LeftOver start extension name calls := by
    intro extension name
    rw [leftOver_concat_iff]
    simp [Drops, Renews, hrefuses]
  constructor
  · rw [hsame]
    exact h.nodup
  · intro extension name
    rw [hsame, hleft]
    apply h.route
  · intro extension name
    rw [hsame, hleft]
    apply h.apart

/-- What the language of a name claims after a registration that goes through. -/
theorem claims_of_register (h : ls.register language = .ok ls') :
  ls'.Claims extension name ↔
    if name = language.name then language.Claims extension else ls.Claims extension name
  := by
  simp only [Claims, get?_of_register h]
  split <;> simp

/-- A registration that goes through sends to the name what the language claims.  What the language
before it claimed and the new one does not is left over. -/
theorem Routed.accept (h : Routed start calls)
    (haccepts : (start.performAll calls).Accepts language) :
  Routed start (calls ++ [.register language])
  := by
  obtain ⟨ls', hregister⟩ := exists_register_iff.mpr haccepts
  have hafter : start.performAll (calls ++ [.register language]) = ls' := by
    rw [performAll_concat, perform, hregister]
    rfl
  have hleft : ∀ extension name, LeftOver start extension name (calls ++ [.register language]) ↔
      (language.name = name ∧ (start.performAll calls).Claims extension name
          ∧ ¬ language.Claims extension)
        ∨ LeftOver start extension name calls
          ∧ ¬ (language.name = name ∧ language.Claims extension) := by
    intro extension name
    rw [leftOver_concat_iff]
    simp [Drops, Renews, haccepts]
  constructor
  · rw [hafter, (register_inv hregister).2]
    apply nodup_foldl_reroute _ _ h.nodup
  · intro extension name
    have hroute := h.route extension name
    rw [hafter, hleft, claims_of_register hregister, route?_of_register hregister]
    by_cases hclaims : language.Claims extension
    · have hother := haccepts extension hclaims name
      grind
    · grind
  · intro extension name
    have hapart := h.apart extension name
    rw [hafter, hleft, claims_of_register hregister]
    grind

/-- Unregistering a name ends the routes of what its language claims. -/
theorem Routed.unregister (h : Routed start calls) (name : String) :
  Routed start (calls ++ [.unregister name])
  := by
  have hleft : ∀ extension other, LeftOver start extension other (calls ++ [.unregister name]) ↔
      LeftOver start extension other calls := by
    intro extension other
    rw [leftOver_concat_iff]
    simp [Renews]
  have hclaims : ∀ extension other,
      ((start.performAll calls).unregister name).1.Claims extension other ↔
        other ≠ name ∧ (start.performAll calls).Claims extension other := by
    intro extension other
    simp only [Claims, get?_unregister]
    split <;> simp_all
  constructor
  · rw [performAll_concat, perform]
    apply nodup_unregister h.nodup
  · intro extension other
    have hroute := h.route extension other
    rw [performAll_concat, perform, hleft, hclaims]
    cases hget : (start.performAll calls).get? name with
    | none =>
      have hnone : ¬ (start.performAll calls).Claims extension name := by simp [Claims, hget]
      rw [unregister_of_none hget]
      grind
    | some language =>
      have hsame : (start.performAll calls).Claims extension name ↔ language.Claims extension := by
        simp [Claims, hget]
      have hapart := h.apart extension other
      rw [route?_unregister h.nodup hget]
      grind
  · intro extension other
    have hapart := h.apart extension other
    rw [performAll_concat, perform, hleft, hclaims]
    grind

/-- What is known of the routes at the start stays known after all calls. -/
theorem routed_of_nil (h : Routed start []) (calls : List Call) :
  Routed start calls
  := by
  induction calls using List.reverseRecOn with
  | nil => exact h
  | append_singleton calls call ih =>
    cases call with
    | register language =>
      by_cases haccepts : (start.performAll calls).Accepts language
      · apply ih.accept haccepts
      · apply ih.refuse haccepts
    | unregister name => apply ih.unregister

theorem routed_empty :
  Routed {} []
  where
  nodup := by simp [performAll]
  route := by simp [performAll, route?, Claims, get?, not_leftOver_nil]
  apart := by simp [not_leftOver_nil]

theorem get?_default :
  ∀ language ∈ default.list, default.get? language.name = some language
  := by
  intro language hlanguage
  simp only [default, List.mem_cons, List.not_mem_nil, or_false] at hlanguage
  rcases hlanguage with rfl | rfl | rfl <;> rfl

theorem routed_default :
  Routed .default []
  := by
  have hnodup : (default.routes.map (·.1)).Nodup := by decide
  constructor
  · exact hnodup
  · intro extension name
    have hlower : ∀ language ∈ default.list,
        language.extensions.map Text.lower = language.extensions := by
      decide +kernel
    rw [performAll, List.foldl_nil, route?_eq_some_iff hnodup]
    simp only [not_leftOver_nil, or_false, Claims, Language.Claims]
    constructor
    · intro hroute
      obtain ⟨language, hlanguage, hmem⟩ := List.mem_flatMap.mp hroute
      obtain ⟨raw, hraw, heq⟩ := List.mem_map.mp hmem
      obtain ⟨rfl, rfl⟩ := Prod.mk.inj heq
      use language, get?_default language hlanguage
      rw [hlower language hlanguage]
      exact hraw
    · rintro ⟨language, hget, hclaims⟩
      have hlanguage : language ∈ default.list := List.mem_of_find?_eq_some hget
      obtain rfl := name_of_get? hget
      rw [hlower language hlanguage] at hclaims
      apply List.mem_flatMap.mpr
      use language, hlanguage
      apply List.mem_map_of_mem hclaims
  · simp [not_leftOver_nil]

theorem routed (hstart : start = {} ∨ start = .default) (calls : List Call) :
  Routed start calls
  := by
  apply routed_of_nil
  rcases hstart with rfl | rfl
  · exact routed_empty
  · exact routed_default

/-! ### Paths -/

/-- A path that is supported has a language, unless its extension is left over from a name that is
gone. -/
theorem Routed.isSupported_iff (h : Routed start calls) (path : SourcePath) :
  ((start.performAll calls).isSupported path ↔ ((start.performAll calls).ofPath? path).isSome) ↔
    (start.performAll calls).route? (Text.lower path.suffix) ≠ some ""
      ∧ ∀ name, LeftOver start (Text.lower path.suffix) name calls →
        ((start.performAll calls).get? name).isSome
  := by
  have hleft : ∀ name, LeftOver start (Text.lower path.suffix) name calls →
      (start.performAll calls).route? (Text.lower path.suffix) = some name := by
    intro name hleft
    exact (h.route _ name).mpr (.inr hleft)
  rw [isSupported, ofPath?]
  cases hsent : (start.performAll calls).route? (Text.lower path.suffix) with
  | none =>
    have hnone : ∀ name, ¬ LeftOver start (Text.lower path.suffix) name calls := by
      intro name hname
      simpa [hsent] using hleft name hname
    simp [hnone]
  | some owner =>
    rw [hsent] at hleft
    by_cases hempty : owner = ""
    · simp [hempty]
    · have hkept : (some owner).filter (fun name => decide (name ≠ "")) = some owner := by
        simp [Option.filter, hempty]
      rw [hkept, Option.bind_some]
      simp only [Option.isSome_some, true_iff, ne_eq, Option.some.injEq, hempty, not_false_eq_true,
        true_and]
      constructor
      · intro hget name hname
        rwa [← Option.some.inj (hleft name hname)]
      · intro hget
        rcases (h.route _ owner).mp hsent with ⟨language, hlanguage, -⟩ | howner
        · simp [hlanguage]
        · exact hget owner howner

/-- The language of a path claims its extension, unless the extension is left over. -/
theorem Routed.claims_iff (h : Routed start calls) {path : SourcePath}
    (hpath : (start.performAll calls).ofPath? path = some language) :
  language.Claims (Text.lower path.suffix) ↔
    ¬ LeftOver start (Text.lower path.suffix) language.name calls
  := by
  obtain ⟨name, hfilter, hget⟩ := Option.bind_eq_some_iff.mp hpath
  obtain ⟨hsent, -⟩ := Option.filter_eq_some_iff.mp hfilter
  obtain rfl := name_of_get? hget
  have hclaims : (start.performAll calls).Claims (Text.lower path.suffix) language.name ↔
      language.Claims (Text.lower path.suffix) := by
    simp [Claims, hget]
  have hroute := (h.route _ _).mp hsent
  have hapart := h.apart (Text.lower path.suffix) language.name
  grind

/-- What is sent to a name that was unregistered is what is left over from it. -/
theorem Routed.route?_unregister_iff (h : Routed start calls) (name extension : String) :
  ((start.performAll calls).unregister name).1.route? extension = some name ↔
    LeftOver start extension name calls
  := by
  have hroute := (h.unregister name).route extension name
  have hgone : ¬ (start.performAll (calls ++ [.unregister name])).Claims extension name := by
    rw [performAll_concat, perform]
    simp [Claims, get?_unregister]
  have hleft : LeftOver start extension name (calls ++ [.unregister name]) ↔
      LeftOver start extension name calls := by
    rw [leftOver_concat_iff]
    simp [Renews]
  rw [performAll_concat, perform] at hroute hgone
  rw [hroute, hleft]
  simp [hgone]

/-- No path has a language whose name was unregistered. -/
theorem name_ne_of_unregister {path : SourcePath}
    (h : (ls.unregister name).1.ofPath? path = some language) :
  language.name ≠ name
  := by
  rintro rfl
  obtain ⟨name, -, hget⟩ := Option.bind_eq_some_iff.mp h
  rw [get?_unregister] at hget
  split at hget
  · cases hget
  · rename_i hother
    exact hother (name_of_get? hget).symm

/-- What was sent to a name that was unregistered is free, unless it is left over. -/
theorem Routed.exists_register_unregister_iff (h : Routed start calls) {name : String}
    {other : Language} (hother : other.name ≠ name)
    (hsent : ∀ extension, other.Claims extension →
      (start.performAll calls).route? extension = some name) :
  (∃ ls', ((start.performAll calls).unregister name).1.register other = .ok ls') ↔
    ∀ extension, other.Claims extension → ¬ LeftOver start extension name calls
  := by
  rw [exists_register_iff]
  constructor
  · intro haccepts extension hclaims hleft
    have hroute := (h.route?_unregister_iff name extension).mpr hleft
    exact hother (haccepts extension hclaims name hroute).symm
  · intro hfree extension hclaims owner howner
    have hbefore := route?_of_unregister h.nodup howner
    rw [hsent extension hclaims] at hbefore
    obtain rfl := Option.some.inj hbefore
    exact absurd ((h.route?_unregister_iff name extension).mp howner) (hfree extension hclaims)

/-- What is left over decides where paths are sent to, after all calls. -/
theorem routes_performAll (hstart : start = {} ∨ start = .default) (calls : List Call) :
  (∀ path : SourcePath,
    (((start.performAll calls).isSupported path ↔
        ((start.performAll calls).ofPath? path).isSome) ↔
      (start.performAll calls).route? (Text.lower path.suffix) ≠ some ""
        ∧ ∀ name, LeftOver start (Text.lower path.suffix) name calls →
          ((start.performAll calls).get? name).isSome))
  ∧ (∀ (path : SourcePath) (language : Language),
    (start.performAll calls).ofPath? path = some language →
      (language.Claims (Text.lower path.suffix) ↔
        ¬ LeftOver start (Text.lower path.suffix) language.name calls))
  ∧ ∀ name : String,
    (∀ (path : SourcePath) (language : Language),
      ((start.performAll calls).unregister name).1.ofPath? path = some language →
        language.name ≠ name)
    ∧ (∀ extension : String,
      ((start.performAll calls).unregister name).1.route? extension = some name ↔
        LeftOver start extension name calls)
    ∧ ∀ other : Language, other.name ≠ name →
      (∀ extension, other.Claims extension →
        (start.performAll calls).route? extension = some name) →
      ((∃ ls', ((start.performAll calls).unregister name).1.register other = .ok ls') ↔
        ∀ extension, other.Claims extension → ¬ LeftOver start extension name calls)
  := by
  have h := routed hstart calls
  constructor
  · intro path
    apply h.isSupported_iff path
  constructor
  · intro path language hpath
    apply h.claims_iff hpath
  · intro name
    constructor
    · intro path language hpath
      apply name_ne_of_unregister hpath
    constructor
    · intro extension
      apply h.route?_unregister_iff name extension
    · intro other hother hsent
      apply h.exists_register_unregister_iff hother hsent

/-- A language that is replaced by one with fewer extensions. -/
def narrowed : List Call :=
  [.register { name := "A", grammar := "a", extensions := [".x", ".y"] }]
    ++ [.register { name := "A", grammar := "a", extensions := [".y"] }]

/-- What only the replaced language claimed has a route without a language, and is not free. -/
theorem routes_performAll_narrowed :
  LeftOver {} ".x" "A" narrowed
    ∧ ¬ ((({} : Languages).performAll (narrowed ++ [.unregister "A"])).isSupported (.ofText "a.x")
      ↔ ((({} : Languages).performAll (narrowed ++ [.unregister "A"])).ofPath?
        (.ofText "a.x")).isSome)
    ∧ ¬ ∃ ls', ((({} : Languages).performAll narrowed).unregister "A").1.register
      { name := "B", grammar := "b", extensions := [".x"] } = .ok ls'
  := by
  have hleft : LeftOver {} ".x" "A" narrowed := by
    apply LeftOver.dropped
    refine ⟨exists_register_iff.mp ⟨_, rfl⟩, rfl, ⟨_, rfl, ?_⟩, ?_⟩ <;> decide +kernel
  have hgone : LeftOver {} ".x" "A" (narrowed ++ [.unregister "A"]) := by
    apply hleft.kept
    simp [Renews]
  have hlower : Text.lower (SourcePath.ofText "a.x").suffix = ".x" := by decide +kernel
  obtain ⟨hsupported, -, -⟩ := routes_performAll (.inl rfl) (narrowed ++ [.unregister "A"])
  obtain ⟨-, -, hunregister⟩ := routes_performAll (.inl rfl) narrowed
  refine ⟨hleft, ?_, ?_⟩
  · rw [hsupported, hlower]
    rintro ⟨-, hthere⟩
    have hget := hthere "A" hgone
    rw [performAll_concat, perform, get?_unregister] at hget
    simp at hget
  · rw [(hunregister "A").2.2 _ (by decide)]
    · intro hfree
      apply hfree ".x" _ hleft
      decide +kernel
    · intro extension hclaims
      have hraw : Text.lower ".x" = ".x" := by decide +kernel
      obtain rfl : extension = ".x" := by simpa [Language.Claims, hraw] using hclaims
      rfl

end Languages

end SingleUse

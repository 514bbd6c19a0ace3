import Mathlib.Data.List.Induction
import ConstraintFacets.ExplicitType

/-! # Runs of requests to a cache

Requests come to a cache of packages one after the other. After any run of them,
the cache keeps for each name of a package the types of the first package of that
name that could be loaded. What is kept stays, and a request that fails changes
nothing. So if equal names stand for equal packages, then every request is
answered as by a cache that has loaded nothing
(`ConstraintFacets.TypeCache.run_keepsFirstLoads`).
-/

namespace ConstraintFacets

/-- A request to a cache. -/
inductive TypeRequest where
  /-- The specified types of a package. -/
  | load (package : Declaration)
  /-- The schema type that is specified for an accessor in a package. -/
  | find (accessor : Declaration) (itemType : Option String) (package : Declaration)

/-- The answer to a request. -/
inductive TypeAnswer where
  | types (result : Except Error ExplicitTypes)
  | type (result : Except Error (Option SchemaType))

/-- An answer is an error. -/
def TypeAnswer.Fails : TypeAnswer → Prop
  | .types result => ∃ error, result = .error error
  | .type result => ∃ error, result = .error error

namespace TypeRequest

/-- The package that a request is about. -/
def package : TypeRequest → Declaration
  | load package => package
  | find _ _ package => package

/-- The package whose types are needed for a request. They are not needed for an
accessor with an annotation of its own, nor for one whose type is not declared. -/
def needed? : TypeRequest → Option Declaration
  | load package => some package
  | find accessor itemType package =>
    match accessor.find? AnnotationName.schemaType, itemType.filter TypeName.isDeclared with
    | none, some _ => some package
    | _, _ => none

/-- The types of a package of a given name are needed for a request and can be
loaded. -/
def Loads (request : TypeRequest) (name : String) (types : ExplicitTypes) : Prop :=
  ∃ package, request.needed? = some package ∧ package.name = name ∧
    package.explicitTypes = .ok types

/-- Types are those of the first package of a given name that can be loaded in a
run. -/
def FirstLoads (requests : List TypeRequest) (name : String) (types : ExplicitTypes) : Prop :=
  ∃ earlier request later, requests = earlier ++ request :: later ∧ request.Loads name types ∧
    ∀ other ∈ earlier, ∀ others, ¬ other.Loads name others

/-- The types of a package of a given name, if they are needed for a request and
can be loaded. -/
def loads? (name : String) (request : TypeRequest) : Option ExplicitTypes :=
  request.needed?.bind fun package =>
    if package.name = name then package.explicitTypes.toOption else none

variable {request : TypeRequest} {requests : List TypeRequest} {name : String}
  {types : ExplicitTypes}

/-- Only the package that a request is about is ever needed for it. -/
theorem package_of_needed {package : Declaration} (needed : request.needed? = some package) :
    request.package = package := by
  cases request with
  | load package => exact Option.some.inj needed
  | find accessor itemType package =>
    simp only [needed?] at needed
    split at needed
    · exact Option.some.inj needed
    · cases needed

theorem toOption_eq_some_iff {α : Type} {result : Except Error α} {value : α} :
    result.toOption = some value ↔ result = .ok value := by
  cases result <;> simp [Except.toOption]

/-- What is computed for a request and a name is what the request loads under that name. -/
theorem loads?_eq_some_iff : request.loads? name = some types ↔ request.Loads name types := by
  simp only [loads?, Loads, Option.bind_eq_some_iff, Option.ite_none_right_eq_some,
    toOption_eq_some_iff]

theorem loads?_eq_none_iff : request.loads? name = none ↔ ∀ types, ¬ request.Loads name types := by
  simp only [Option.eq_none_iff_forall_not_mem, Option.mem_def, loads?_eq_some_iff]

/-- The first types loaded under a name are found by going through the requests. -/
theorem firstLoads_iff :
    FirstLoads requests name types ↔ requests.findSome? (loads? name) = some types := by
  simp only [List.findSome?_eq_some_iff, loads?_eq_some_iff, loads?_eq_none_iff, FirstLoads]

end TypeRequest

namespace TypeCache

open TypeRequest

/-- The answer of a cache to a request. -/
def answer (cache : TypeCache) : TypeRequest → TypeAnswer
  | .load package => .types (cache.load package).1
  | .find accessor itemType package => .type (cache.find accessor itemType package).1

/-- A cache after a request. -/
def after (cache : TypeCache) : TypeRequest → TypeCache
  | .load package => (cache.load package).2
  | .find accessor itemType package => (cache.find accessor itemType package).2

/-- The cache after a run of requests, which has loaded nothing before. -/
def run (requests : List TypeRequest) : TypeCache :=
  requests.foldl after {}

variable {cache : TypeCache} {request : TypeRequest} {requests : List TypeRequest}
  {name : String} {types : ExplicitTypes} {package : Declaration}

/-- What is kept under the name of a package answers for it, and the cache stays as it is. -/
theorem load_of_kept (kept : Keyed.get? cache.packages package.name = some types) :
    cache.load package = (.ok types, cache) := by
  simp only [load, kept]

/-- If nothing is kept, the types of the package answer, and are kept from then on. -/
theorem load_of_explicitTypes (absent : Keyed.get? cache.packages package.name = none)
    (loaded : package.explicitTypes = .ok types) :
    cache.load package =
      (.ok types, ⟨Keyed.insert cache.packages package.name types⟩) := by
  simp only [load, absent, loaded]

/-- A package that cannot be loaded is reported and leaves nothing behind. -/
theorem load_of_error {error : Error} (absent : Keyed.get? cache.packages package.name = none)
    (failed : package.explicitTypes = .error error) :
    cache.load package = (.error error, cache) := by
  simp only [load, absent, failed]

/-- A package is loaded from what is kept under its name. If nothing is, its types
are kept from then on, unless they cannot be loaded. -/
theorem load_cases (cache : TypeCache) (package : Declaration) :
    (∃ types, Keyed.get? cache.packages package.name = some types ∧
      cache.load package = (.ok types, cache)) ∨
    Keyed.get? cache.packages package.name = none ∧
      ((∃ types, package.explicitTypes = .ok types ∧
        cache.load package = (.ok types, ⟨Keyed.insert cache.packages package.name types⟩)) ∨
      ∃ error, package.explicitTypes = .error error ∧
        cache.load package = (.error error, cache)) := by
  cases kept : Keyed.get? cache.packages package.name with
  | some types => exact .inl ⟨types, rfl, load_of_kept kept⟩
  | none =>
    refine .inr ⟨rfl, ?_⟩
    cases loaded : package.explicitTypes with
    | ok types => exact .inl ⟨types, rfl, load_of_explicitTypes kept loaded⟩
    | error error => exact .inr ⟨error, rfl, load_of_error kept loaded⟩

/-- After loading a package the cache keeps what it kept, and under the name of the package its
types if there was nothing. -/
theorem get?_load (cache : TypeCache) (package : Declaration) (name : String) :
    Keyed.get? (cache.load package).2.packages name =
      (Keyed.get? cache.packages name).or
        (if package.name = name then package.explicitTypes.toOption else none) := by
  by_cases same : package.name = name
  · subst same
    rcases cache.load_cases package with
      ⟨types, kept, load⟩ | ⟨absent, ⟨types, loaded, load⟩ | ⟨error, failed, load⟩⟩
    · simp [load, kept]
    · simp [load, absent, loaded, Keyed.get?_insert, Except.toOption]
    · simp [load, failed, Except.toOption]
  · rw [if_neg same, Option.or_none]
    rcases cache.load_cases package with
      ⟨types, -, load⟩ | ⟨-, ⟨types, -, load⟩ | ⟨error, -, load⟩⟩
    · rw [load]
    · rw [load, Keyed.get?_insert, if_neg (Ne.symm same)]
    · rw [load]

theorem nodup_keys_load (distinct : (Keyed.keys cache.packages).Nodup) (package : Declaration) :
    (Keyed.keys (cache.load package).2.packages).Nodup := by
  rcases cache.load_cases package with
    ⟨types, -, load⟩ | ⟨-, ⟨types, -, load⟩ | ⟨error, -, load⟩⟩
  · rwa [load]
  · rw [load]
    exact Keyed.nodup_keys_insert distinct package.name types
  · rwa [load]

/-- A load that fails leaves the cache as it was. -/
theorem load_of_fails {error : Error} (failed : (cache.load package).1 = .error error) :
    (cache.load package).2 = cache := by
  rcases cache.load_cases package with
    ⟨types, -, load⟩ | ⟨-, ⟨types, -, load⟩ | ⟨error, -, load⟩⟩
  · rw [load]
  · simp [load] at failed
  · rw [load]

/-- The cache answers with the types of the package, if what it keeps under that name is of
that package. -/
theorem load_eq_explicitTypes
    (own : ∀ types, Keyed.get? cache.packages package.name = some types →
      package.explicitTypes = .ok types) :
    (cache.load package).1 = package.explicitTypes := by
  rcases cache.load_cases package with
    ⟨types, kept, load⟩ | ⟨-, ⟨types, loaded, load⟩ | ⟨error, failed, load⟩⟩
  · rw [load, own types kept]
  · rw [load, loaded]
  · rw [load, failed]

/-- A request that needs no package is answered in one way by all caches, which it
does not change. Any other one loads the package that it needs, and fails just if
loading fails. -/
theorem answer_after_cases (request : TypeRequest) :
    (request.needed? = none ∧
      ∃ reply, ∀ cache : TypeCache, cache.answer request = reply ∧ cache.after request = cache) ∨
    ∃ package, request.needed? = some package ∧
      ∃ reply : Except Error ExplicitTypes → TypeAnswer,
        (∀ result, (reply result).Fails ↔ ∃ error, result = .error error) ∧
        ∀ cache : TypeCache, cache.answer request = reply (cache.load package).1 ∧
          cache.after request = (cache.load package).2 := by
  cases request with
  | load package =>
    exact .inr ⟨package, rfl, .types, fun result => Iff.rfl, fun cache => ⟨rfl, rfl⟩⟩
  | find accessor itemType package =>
    cases own : accessor.find? AnnotationName.schemaType with
    | some use =>
      refine .inl ⟨by simp [needed?, own],
        .type ((SpecifiedType.ofUse use).map fun type => some (.specified type)),
        fun cache => ⟨?_, ?_⟩⟩
      · simp only [answer, find, own]
      · simp only [after, find, own]
    | none =>
      cases declared : itemType.filter TypeName.isDeclared with
      | none =>
        refine .inl ⟨by simp [needed?, own, declared], .type (.ok none), fun cache => ⟨?_, ?_⟩⟩
        · simp only [answer, find, own, declared]
        · simp only [after, find, own, declared]
      | some type =>
        refine .inr ⟨package, by simp [needed?, own, declared],
          fun result => .type (result.map fun types =>
            (Keyed.get? types (TypeName.erase type)).map .specified), ?_, fun cache => ⟨?_, ?_⟩⟩
        · intro result
          cases result <;> simp [TypeAnswer.Fails, Except.map]
        · simp only [answer, find, own, declared]
        · simp only [after, find, own, declared]

/-- After a request the cache keeps what it kept, and what the request loads where there was
nothing. -/
theorem get?_after (cache : TypeCache) (request : TypeRequest) (name : String) :
    Keyed.get? (cache.after request).packages name =
      (Keyed.get? cache.packages name).or (request.loads? name) := by
  rcases answer_after_cases request with ⟨unneeded, reply, same⟩ | ⟨package, needed, reply, -, same⟩
  · simp [(same cache).2, loads?, unneeded]
  · simp [(same cache).2, get?_load, loads?, needed]

theorem nodup_keys_after (distinct : (Keyed.keys cache.packages).Nodup) (request : TypeRequest) :
    (Keyed.keys (cache.after request).packages).Nodup := by
  rcases answer_after_cases request with ⟨-, reply, same⟩ | ⟨package, -, reply, -, same⟩
  · rwa [(same cache).2]
  · rw [(same cache).2]
    exact nodup_keys_load distinct package

theorem after_of_fails (fails : (cache.answer request).Fails) : cache.after request = cache := by
  rcases answer_after_cases request with ⟨-, reply, same⟩ | ⟨package, -, reply, failing, same⟩
  · exact (same cache).2
  · obtain ⟨error, failed⟩ := (failing _).mp ((same cache).1 ▸ fails)
    rw [(same cache).2, load_of_fails failed]

/-- A request is answered as by a fresh cache, if what is kept for its package is of that
package. -/
theorem answer_eq_fresh
    (own : ∀ package types, request.needed? = some package →
      Keyed.get? cache.packages package.name = some types → package.explicitTypes = .ok types) :
    cache.answer request = ({} : TypeCache).answer request := by
  rcases answer_after_cases request with ⟨-, reply, same⟩ | ⟨package, needed, reply, -, same⟩
  · rw [(same cache).1, (same {}).1]
  · rw [(same cache).1, (same {}).1, load_eq_explicitTypes fun types => own package types needed,
      load_eq_explicitTypes fun types kept => by simp at kept]

theorem run_append_singleton : run (requests ++ [request]) = (run requests).after request := by
  simp [run]

/-- After a run the cache keeps the first types that were loaded under a name. -/
theorem get?_run (requests : List TypeRequest) (name : String) :
    Keyed.get? (run requests).packages name = requests.findSome? (loads? name) := by
  induction requests using List.reverseRecOn with
  | nil => rfl
  | append_singleton earlier request ih =>
    rw [run_append_singleton, get?_after, ih, List.findSome?_append, List.findSome?_singleton]

/-- After any run there is one entry for each name. -/
theorem nodup_keys_run (requests : List TypeRequest) :
    (Keyed.keys (run requests).packages).Nodup := by
  induction requests using List.reverseRecOn with
  | nil => exact List.nodup_nil
  | append_singleton earlier request ih =>
    rw [run_append_singleton]
    exact nodup_keys_after ih request

/-- What is kept stays through all later requests. -/
theorem get?_run_append (kept : Keyed.get? (run requests).packages name = some types)
    (later : List TypeRequest) :
    Keyed.get? (run (requests ++ later)).packages name = some types := by
  rw [get?_run] at kept ⊢
  rw [List.findSome?_append, kept, Option.some_or]

/-- The cache keeps just the first loads of its run. -/
theorem get?_run_eq_some_iff :
    Keyed.get? (run requests).packages name = some types ↔ FirstLoads requests name types := by
  rw [get?_run, firstLoads_iff]

/-- The names that are kept are those under which some request could load something. -/
theorem mem_keys_run :
    name ∈ Keyed.keys (run requests).packages ↔
      ∃ request ∈ requests, ∃ types, request.Loads name types := by
  simp only [Keyed.mem_keys_iff, get?_run, ← Option.isSome_iff_exists,
    List.findSome?_isSome_iff]
  simp only [Option.isSome_iff_exists, loads?_eq_some_iff]

/-- Only a package of the same name can change an answer. -/
theorem answer_run_eq_fresh
    (same : ∀ earlier ∈ requests, earlier.package.name = request.package.name →
      earlier.package = request.package) :
    (run requests).answer request = ({} : TypeCache).answer request := by
  refine answer_eq_fresh fun package types needed kept => ?_
  obtain ⟨before, first, after, split, ⟨loaded, needs, named, explicit⟩, -⟩ :=
    get?_run_eq_some_iff.mp kept
  have listed : first ∈ requests := by simp [split]
  rw [← package_of_needed needed, ← package_of_needed needs] at named
  rw [← package_of_needed needed, ← same first listed named, package_of_needed needs]
  exact explicit

/-- A run keeps, under each name, the types of the first package of that name that
could be loaded, and nothing else. What is kept stays, a request that fails changes
nothing, and each name counts once. If equal names stand for equal packages, then
every request is answered as by a cache that has loaded nothing. -/
theorem run_keepsFirstLoads (requests : List TypeRequest) :
    (∀ name types, Keyed.get? (run requests).packages name = some types ↔
      FirstLoads requests name types) ∧
    (∀ later name types, Keyed.get? (run requests).packages name = some types →
      Keyed.get? (run (requests ++ later)).packages name = some types) ∧
    (∀ request, ((run requests).answer request).Fails →
      run (requests ++ [request]) = run requests) ∧
    (∃ names : List String, names.Nodup ∧
      (∀ name, name ∈ names ↔ ∃ request ∈ requests, ∃ types, request.Loads name types) ∧
      (run requests).size = names.length) ∧
    ((run requests).isEmpty = true ↔ (run requests).size = 0) ∧
    ((∀ first ∈ requests, ∀ second ∈ requests, first.package.name = second.package.name →
        first.package = second.package) →
      ∀ earlier request later, requests = earlier ++ request :: later →
        (run earlier).answer request = ({} : TypeCache).answer request) := by
  refine ⟨fun name types => get?_run_eq_some_iff, fun later name types kept =>
    get?_run_append kept later, fun request fails => ?_, ?_, ?_, ?_⟩
  · rw [run_append_singleton, after_of_fails fails]
  · exact ⟨Keyed.keys (run requests).packages, nodup_keys_run requests,
      fun name => mem_keys_run, (List.length_map _).symm⟩
  · rw [isEmpty, size, List.isEmpty_iff_length_eq_zero]
  · rintro same earlier request later rfl
    exact answer_run_eq_fresh fun first listed =>
      same first (by simp [listed]) request (by simp)

/-- A package that names a schema type for dates. -/
def datePackage : Declaration where
  name := "com.example"
  annotations := [{
    type := AnnotationName.schemaType
    values := [("name", .string "date"), ("type", .classLiteral "java.util.Date")] }]

/-- A package whose annotation does not say which type it is about. -/
def untypedPackage : Declaration where
  name := "com.example.draft"
  annotations := [{ type := AnnotationName.schemaType, values := [("name", .string "date")] }]

/-- The types that the package of dates specifies. -/
def dateTypes : ExplicitTypes :=
  [("java.util.Date", ⟨"date", schemaNamespace, by decide⟩)]

/-- A package that fails to load, then one that is loaded for an accessor. -/
def dateRequests : List TypeRequest :=
  [.load untypedPackage, .find { name := "birth" } (some "java.util.Date") datePackage]

/-- A package of dates is loaded and kept; one that cannot be loaded changes nothing after it. -/
theorem run_keepsFirstLoads_dates :
    FirstLoads dateRequests "com.example" dateTypes ∧
    Keyed.get? (run (dateRequests ++ [.load datePackage])).packages "com.example" =
      some dateTypes ∧
    run (dateRequests ++ [.load untypedPackage]) = run dateRequests ∧
    (run dateRequests).answer (.load datePackage) =
      ({} : TypeCache).answer (.load datePackage) := by
  obtain ⟨first, stays, failing, -⟩ := run_keepsFirstLoads dateRequests
  obtain ⟨-, -, -, -, -, fresh⟩ := run_keepsFirstLoads (dateRequests ++ [.load datePackage])
  refine ⟨(first _ _).mp rfl, stays _ _ _ rfl, failing _ ⟨_, rfl⟩, fresh ?_ _ _ [] rfl⟩
  simp [dateRequests, TypeRequest.package, datePackage, untypedPackage]

end TypeCache

end ConstraintFacets

import DocTags.Proofs.Names
import DocTags.Reader.Resolve

/-!
# Runs that ask for schemas

Reading the documentation of a class and building annotations asks for schemas of other types, and
the answers are all that these runs learn about caches and stacks.  `Asking` says this of a run with
an oracle for its answerer: it is put together from uniform runs on names, questions to the oracle,
and the flag of the reader.  What holds of the answers of an oracle then holds of whole runs, by an
induction over `Asking` in place of one over all functions that take part.

`Asking` also bounds the types that are asked for.  They are known beforehand, apart from those that
names in a text are resolved to, and these depend on what a name can denote only.
-/

namespace DocTags
namespace Reader

open Names

/-- Answers the question for the schema of a type; the first argument tells whether it is asked for
as an ancestor. -/
abbrev Oracle := Bool → TypeId → Run Reader Schema

/-- The runs that are put together from names, questions and the flag.  They ask for types of a
given kind, if the reader has the given imports.  The proviso is that of `Uniform`. -/
inductive Asking {w : World} (ids : OwnIds w) (imports : Keyed TypeId) (p : Prop) :
    (TypeId → Prop) → {α : Type} → (Oracle → Run Reader α) → Prop
  | pure {L : TypeId → Prop} {α : Type} (a : α) : Asking ids imports p L fun _ => pure a
  | throw {L : TypeId → Prop} {α : Type} (e : Error) :
      Asking ids imports p L fun _ => (throw e : Run Reader α)
  | names {L : TypeId → Prop} {α : Type} {act : Run Names α} (h : Uniform ids p act) :
      Asking ids imports p L fun _ => onNames act
  | ask {L : TypeId → Prop} (asAncestor : Bool) {type : TypeId} (h : L type) :
      Asking ids imports p L fun so => so asAncestor type
  /-- A name is resolved, and the type may be asked for. -/
  | resolve {L : TypeId → Prop} {α : Type} {scope : Scope}
      {f : TypeId → Oracle → Run Reader α} (hs : p → ids.Fits scope) (name : String)
      (hf : ∀ type, Denotes w imports scope name type → Asking ids imports p L (f type))
      (hall : ∀ type, Asking ids imports p (fun _ => True) (f type)) :
      Asking ids imports p L fun so => onNames (resolve w scope name) >>= fun type => f type so
  | flag {L : TypeId → Prop} {α : Type} {x y : Oracle → Run Reader α}
      (hx : Asking ids imports p L x) (hy : Asking ids imports p L y) :
      Asking ids imports p L fun so => get >>= fun r => if r.readsClasses then x so else y so
  | bind {L : TypeId → Prop} {α β : Type} {x : Oracle → Run Reader α}
      {f : α → Oracle → Run Reader β} (hx : Asking ids imports p L x)
      (hf : ∀ a, Asking ids imports p L (f a)) :
      Asking ids imports p L fun so => x so >>= fun a => f a so

variable {w : World} {ids : OwnIds w} {imports : Keyed TypeId} {p : Prop} {L : TypeId → Prop}

namespace Asking

variable {α : Type}

lemma liftExcept (x : Except Error α) : Asking ids imports p L fun _ => liftExcept x := by
  cases x with
  | error e => exact .throw e
  | ok a => exact .pure a

lemma mapM {β : Type} {f : β → Oracle → Run Reader α} (hf : ∀ b, Asking ids imports p L (f b))
    (bs : List β) : Asking ids imports p L fun so => bs.mapM fun b => f b so := by
  induction bs with
  | nil => exact .pure _
  | cons b bs ih =>
    simp only [List.mapM_cons]
    exact (hf b).bind fun a => ih.bind fun as => .pure _

end Asking

/-! ## Building and reading -/

lemma asking_buildWith (owner : Option TypeId) {type : TypeId} (htype : L type) (supplied : Value)
    (placement : Placement) :
    Asking ids imports p L fun so => buildWith w (so false) owner type supplied placement := by
  unfold buildWith
  exact (Asking.ask false htype).bind fun s =>
    (Asking.names (Build.uniform_checked type s supplied placement)).bind fun attributes =>
      (Asking.names (uniform_load type)).bind fun found =>
        (Asking.liftExcept _).bind fun fields => .pure _

section Block

variable {scope : Scope} (placement : Placement) (owner : Option TypeId)

/-- What a block is read with, when the oracle answers for the schemas. -/
abbrev settingFor (w : World) (scope : Scope) (placement : Placement) (owner : Option TypeId)
    (so : Oracle) : Setting :=
  { world := w, scope, placement, owner, schemaOf := so false }

/-- All types that some names can be resolved to are of the given kind. -/
def Covers (w : World) (imports : Keyed TypeId) (scope : Scope) (L : TypeId → Prop)
    (names : List String) : Prop :=
  ∀ name ∈ names, ∀ type, Denotes w imports scope name type → L type

lemma Covers.mono {names names' : List String} (h : Covers w imports scope L names)
    (hsub : names' ⊆ names) : Covers w imports scope L names' :=
  fun name hname => h name (hsub hname)

lemma asking_wordValue (hs : p → ids.Fits scope) (name : String) :
    Asking ids imports p L fun so => (settingFor w scope placement owner so).wordValue name := by
  refine (Asking.names (uniform_constant? hs name)).bind fun v => ?_
  cases v with
  | some v => exact .pure v
  | none => exact (Asking.names (uniform_resolve hs name)).bind fun type => .pure _

lemma asking_build (hs : p → ids.Fits scope) {name : String}
    (hL : Covers w imports scope L [name]) (args : TagList) (place : Placement) :
    Asking ids imports p L fun so =>
      (settingFor w scope placement owner so).build name args place := by
  refine .resolve hs name (fun type htype => ?_) fun type => ?_
  · exact (asking_buildWith owner (hL name (List.mem_singleton_self name) type htype)
      (.tags args) place).bind fun _ => .pure _
  · exact (asking_buildWith owner trivial (.tags args) place).bind fun _ => .pure _

mutual

lemma asking_item (hs : p → ids.Fits scope) (i : Item) (hL : Covers w imports scope L i.names) :
    Asking ids imports p L fun so => (settingFor w scope placement owner so).item i := by
  match i with
  | .value v => simp only [Setting.item]; exact .pure v
  | .word name => simp only [Setting.item]; exact asking_wordValue placement owner hs name
  | .list es =>
    rw [Item.names] at hL
    simp only [Setting.item]
    exact (asking_entries hs es [] hL).bind fun v => .pure _
  | .nested name args =>
    rw [Item.names] at hL
    simp only [Setting.item]
    exact (asking_entries hs args [] (hL.mono (by simp))).bind fun args =>
      (asking_build placement owner hs (hL.mono (by simp)) args .nested).bind fun _ => .pure _

lemma asking_entries (hs : p → ids.Fits scope) (es : Entries) (acc : TagList)
    (hL : Covers w imports scope L es.names) :
    Asking ids imports p L fun so => (settingFor w scope placement owner so).entries es acc := by
  match es with
  | .closed => simp only [Setting.entries]; exact .pure _
  | .entry key i rest =>
    rw [Entries.names] at hL
    simp only [Setting.entries]
    exact (asking_item hs i (hL.mono (by simp))).bind fun v =>
      asking_entries hs rest _ (hL.mono (by simp))
  | .broken none e => simp only [Setting.entries]; exact .throw e
  | .broken (some i) e =>
    rw [Entries.names] at hL
    simp only [Setting.entries]
    exact (asking_item hs i hL).bind fun _ => .throw e

end

lemma asking_tag (hs : p → ids.Fits scope) (c : Comment) (t : Tag)
    (hL : Covers w imports scope L t.names) :
    Asking ids imports p L fun so => (settingFor w scope placement owner so).tag c t := by
  cases t with
  | plain name text => exact .pure _
  | list name es after =>
    refine (asking_entries placement owner hs es [] hL).bind fun v => ?_
    cases after with
    | some t => exact .throw _
    | none => exact .pure _
  | typed name args =>
    rw [Tag.names] at hL
    exact (asking_entries placement owner hs args [] (hL.mono (by simp))).bind fun args =>
      (asking_build placement owner hs (hL.mono (by simp)) args placement).bind fun _ => .pure _

lemma asking_tags (hs : p → ids.Fits scope) (c : Comment) (ts : List Tag)
    (hL : Covers w imports scope L (ts.flatMap Tag.names)) :
    Asking ids imports p L fun so => (settingFor w scope placement owner so).tags c ts := by
  induction ts generalizing c with
  | nil => exact .pure _
  | cons t ts ih =>
    rw [List.flatMap_cons] at hL
    exact (asking_tag placement owner hs c t (hL.mono (by simp))).bind fun c =>
      ih c (hL.mono (by simp))

lemma asking_read (hs : p → ids.Fits scope) (block : List Char)
    (hL : Covers w imports scope L (annotationNames block)) :
    Asking ids imports p L fun so => (settingFor w scope placement owner so).read block := by
  unfold annotationNames at hL
  unfold Setting.read
  rcases hsplit : Text.splitSection (Text.bare block) with ⟨before, _ | text⟩
  · exact .pure _
  · rw [hsplit] at hL
    exact asking_tags placement owner hs _ _ hL

end Block

/-! ## Declarations -/

section Declarations

variable {scope : Scope}

mutual

lemma asking_ofDeclaration (hs : p → ids.Fits scope) (v : Value) :
    Asking ids imports p L fun _ =>
      TypeExpr.ofDeclaration w (fun name => onNames (resolve w scope name)) v := by
  match v with
  | .typeExpr (.foreign name) => simp only [TypeExpr.ofDeclaration]; exact .liftExcept _
  | .typeExpr .mixed | .typeExpr .string | .typeExpr .number | .typeExpr .integer
  | .typeExpr .float | .typeExpr .boolean | .typeExpr (.enum _) | .typeExpr (.ref _)
  | .typeExpr (.tuple _) | .typeExpr (.list _) | .null | .cls _ =>
    simp only [TypeExpr.ofDeclaration]
    exact .pure _
  | .str s =>
    simp only [TypeExpr.ofDeclaration]
    cases TypeExpr.ofKindText? s with
    | some t => exact .pure t
    | none => exact (Asking.names (uniform_resolve hs s)).bind fun type => .pure _
  | .list items | .tuple items =>
    simp only [TypeExpr.ofDeclaration]
    exact (asking_ofDeclarations hs items).bind fun types => .pure _
  | .dict pairs =>
    simp only [TypeExpr.ofDeclaration]
    exact (asking_ofKeys hs pairs).bind fun types => .pure _
  | .tags entries =>
    simp only [TypeExpr.ofDeclaration]
    exact (asking_ofEntries hs entries).bind fun types => .pure _
  | .placement _ | .bool _ | .int _ | .float _ _ | .moment _ | .object _ _ _ | .routine _
  | .property _ | .moduleNamed _ | .missing =>
    simp only [TypeExpr.ofDeclaration]
    exact .liftExcept _

lemma asking_ofDeclarations (hs : p → ids.Fits scope) (vs : List Value) :
    Asking ids imports p L fun _ =>
      TypeExpr.ofDeclarations w (fun name => onNames (resolve w scope name)) vs := by
  match vs with
  | [] => simp only [TypeExpr.ofDeclarations]; exact .pure _
  | v :: vs =>
    simp only [TypeExpr.ofDeclarations]
    exact (asking_ofDeclaration hs v).bind fun t =>
      (asking_ofDeclarations hs vs).bind fun ts => .pure _

lemma asking_ofKeys (hs : p → ids.Fits scope) (pairs : List (Value × Value)) :
    Asking ids imports p L fun _ =>
      TypeExpr.ofKeys w (fun name => onNames (resolve w scope name)) pairs := by
  match pairs with
  | [] => simp only [TypeExpr.ofKeys]; exact .pure _
  | (key, _) :: pairs =>
    simp only [TypeExpr.ofKeys]
    exact (asking_ofDeclaration hs key).bind fun t =>
      (asking_ofKeys hs pairs).bind fun ts => .pure _

lemma asking_ofEntries (hs : p → ids.Fits scope) (entries : List (Option String × Value)) :
    Asking ids imports p L fun _ =>
      TypeExpr.ofEntries w (fun name => onNames (resolve w scope name)) entries := by
  match entries with
  | [] => simp only [TypeExpr.ofEntries]; exact .pure _
  | (_, v) :: entries =>
    simp only [TypeExpr.ofEntries]
    exact (asking_ofDeclaration hs v).bind fun t =>
      (asking_ofEntries hs entries).bind fun ts => .pure _

end

lemma asking_specOf (hs : p → ids.Fits scope) (v : Value) :
    Asking ids imports p L fun _ => specOf w scope v := by
  unfold specOf
  refine (Asking.liftExcept _).bind fun name => (Asking.liftExcept _).bind fun type =>
    (asking_ofDeclaration hs type).bind fun t => (Asking.liftExcept _).bind fun required =>
      (Asking.liftExcept _).bind fun nullable => (Asking.liftExcept _).bind fun setter =>
        (Asking.liftExcept _).bind fun default => ?_
  dsimp only
  cases name.isHashable with
  | true => exact (Asking.liftExcept _).bind fun _ => .pure _
  | false => exact (Asking.throw _).bind fun _ => (Asking.liftExcept _).bind fun _ => .pure _

lemma asking_declarations {type : TypeId} (hs : p → ids.Fits (w.classScope type)) (c : Comment) :
    Asking ids imports p L fun _ => declarations w type c := by
  unfold declarations
  exact (Asking.mapM (fun v => asking_specOf hs v) _).bind fun attributes =>
    (Asking.liftExcept _).bind fun targets => (Asking.liftExcept _).bind fun default => .pure _

end Declarations

/-! ## Resolving one type -/

/-- All types that resolving a type can ask for are of the given kind. -/
structure Bounds (w : World) (imports : Keyed TypeId) (declared : Keyed Schema)
    (L : TypeId → Prop) : Prop where
  parents : ∀ type s, declared.get? type = some s → Covers w imports [] L [s.parent.getD ""]
  bases : ∀ found parent, w.parent? found = some parent → L parent
  docs : ∀ found, Covers w imports (w.classScope found) L (annotationNames (w.classDoc found))

lemma bounds_true (declared : Keyed Schema) : Bounds w imports declared fun _ => True :=
  ⟨fun _ _ _ _ _ _ _ => trivial, fun _ _ _ => trivial, fun _ _ _ _ _ => trivial⟩

variable {declared : Keyed Schema}

lemma asking_readClassWith (h : Bounds w imports declared L) (type : TypeId) {found : TypeId}
    (hs : p → ids.Fits (w.classScope found)) :
    Asking ids imports p L fun so => readClassWith w (so false) type found :=
  .flag (asking_read .onClass (some type) hs (w.classDoc found) (h.docs found)) (.throw _)

lemma asking_finish (type : TypeId) (s : Schema) :
    Asking ids imports p L fun _ => finish w type s :=
  (Asking.liftExcept _).bind fun _ => (Asking.names (uniform_load type)).bind fun _ =>
    .liftExcept _

lemma asking_resolveDeclared (type : TypeId) {s : Schema}
    (h : Covers w imports [] L [s.parent.getD ""]) :
    Asking ids imports p L fun so => resolveDeclared w (so true) type s := by
  unfold resolveDeclared
  dsimp only
  split
  · exact asking_finish type s
  · refine .resolve (fun _ => OwnIds.fits_nil) _ (fun parent hparent => ?_) fun parent => ?_
    · exact (Asking.ask true (h _ (List.mem_singleton_self _) parent hparent)).bind fun s =>
        asking_finish type _
    · exact (Asking.ask true trivial).bind fun s => asking_finish type _

lemma asking_inherited (h : Bounds w imports declared L) (found : TypeId) :
    Asking ids imports p L fun so => inherited w (so true) found := by
  unfold inherited
  cases hparent : w.parent? found with
  | some parent =>
    exact (Asking.names (uniform_remember parent)).bind fun _ =>
      (Asking.ask true (h.bases found parent hparent)).bind fun s => .pure _
  | none => exact .pure _

/-- What a class declares itself, if it is an annotation type. -/
def own (w : World) (schemaOf : TypeId → Run Reader Schema) (type found : TypeId) :
    Run Reader (Option Declarations) := do
  let c ← readClassWith w schemaOf type found
  if c.has "Annotation" then return some (← declarations w found c) else return none

lemma asking_own (h : Bounds w imports declared L) (type : TypeId) {found : TypeId}
    (hs : p → ids.Fits (w.classScope found)) :
    Asking ids imports p L fun so => own w (so false) type found := by
  refine (asking_readClassWith h type hs).bind fun c => ?_
  cases c.has "Annotation" with
  | true => exact (asking_declarations hs c).bind fun d => .pure _
  | false => exact .pure _

/-- The schema of a type from what its class inherits and declares itself. -/
def compose (w : World) (type : TypeId) (s : Schema) :
    Option Declarations → Run Reader (Schema × Bool)
  | some d => do return (← finish w type (s.extend d).withTargets, true)
  | none => return (s, false)

lemma asking_compose (type : TypeId) (s : Schema) (d : Option Declarations) :
    Asking ids imports p L fun _ => compose w type s d := by
  cases d with
  | some d => exact (asking_finish type _).bind fun s => .pure _
  | none => exact .pure _

/-- The schema of a type from the class that it was loaded as. -/
def introspectAs (w : World) (schemaOf ancestorOf : TypeId → Run Reader Schema)
    (type found : TypeId) : Run Reader (Schema × Bool) := do
  let s ← inherited w ancestorOf found
  let d ← own w schemaOf type found
  compose w type s d

lemma introspect_eq (schemaOf ancestorOf : TypeId → Run Reader Schema) (type : TypeId) :
    introspect w schemaOf ancestorOf type =
      onNames (load w type) >>= introspectAs w schemaOf ancestorOf type := by
  unfold introspect
  refine congrArg _ (funext fun found => congrArg _ (funext fun s => ?_))
  unfold own
  rw [bind_assoc]
  refine congrArg _ (funext fun c => ?_)
  split
  · rw [bind_assoc]
    exact congrArg _ (funext fun d => (pure_bind (some d) (compose w type s)).symm)
  · exact (pure_bind none (compose w type s)).symm

/-- Resolves one type, with an oracle for the types that it asks for. -/
def resolveBy (w : World) (declared : Keyed Schema) (type : TypeId) (so : Oracle) :
    Run Reader (Schema × Bool) :=
  resolveFresh w (so false) (so true) type (declared.get? type)

/-! ## Reading some of the classes

To say which documentation a run reads, it is compared with one that gives up where it would read
that of another class. -/

/-- What a class declares itself, if it is one of those that may be read. -/
def ownAmong (w : World) (docs : TypeId → Bool) (schemaOf : TypeId → Run Reader Schema)
    (type found : TypeId) : Run Reader (Option Declarations) :=
  if docs found then own w schemaOf type found
  else do if (← get).readsClasses then throw .tooDeep else throw (.unreadable found)

/-- Resolves one type, as long as no documentation is read but that of the classes in `docs`. -/
def resolveByAmong (w : World) (docs : TypeId → Bool) (declared : Keyed Schema) (type : TypeId)
    (so : Oracle) : Run Reader (Schema × Bool) :=
  match declared.get? type with
  | some s => do return (← resolveDeclared w (so true) type s, true)
  | none => do
    let found ← onNames (load w type)
    let s ← inherited w (so true) found
    let d ← ownAmong w docs (so false) type found
    compose w type s d

/-- If all classes may be read, nothing changes. -/
lemma resolveByAmong_all (declared : Keyed Schema) (type : TypeId) (so : Oracle) :
    resolveByAmong w (fun _ => true) declared type so = resolveBy w declared type so := by
  unfold resolveByAmong resolveBy
  cases declared.get? type with
  | some s => rfl
  | none => exact (introspect_eq (so false) (so true) type).symm

/-- Resolving one type asks for the schemas of others, and learns nothing else about them. -/
lemma asking_resolveByAmong {docs : TypeId → Bool}
    (hdocs : p → ∀ found, docs found = true → ids.docs found = true)
    (h : Bounds w imports declared L) (type : TypeId) :
    Asking ids imports p L (resolveByAmong w docs declared type) := by
  unfold resolveByAmong
  cases hs : declared.get? type with
  | some s => exact (asking_resolveDeclared type (h.parents type s hs)).bind fun s => .pure _
  | none =>
    refine (Asking.names (uniform_load type)).bind fun found =>
      (asking_inherited h found).bind fun s => Asking.bind ?_ fun d => asking_compose type s d
    unfold ownAmong
    by_cases hfound : docs found = true
    · simp only [if_pos hfound]
      exact asking_own h type fun hp => OwnIds.fits_classScope (hdocs hp found hfound)
    · simp only [if_neg hfound]
      exact .flag (.throw _) (.throw _)

end Reader
end DocTags

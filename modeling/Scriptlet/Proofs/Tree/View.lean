/-
# The plain view loses nothing

Programs with the same plain view are the same program.  Plain data are compared as data: the fields
of an object have no order, and doubles are compared by their values (`Json.same`).

The view of a node tells its type, and the type tells which parts there are, so two views are the
same only part by part.  There are two places where different things might look alike: an `if`
without `else` has null where another one has a statement, but no statement is null; and a whole
number is shown as an integer, but the integer determines the number up to the sign of zero.
-/
import Mathlib
import Scriptlet.Proofs.Binary64.Whole
import Scriptlet.Tree.Json
import Scriptlet.Tree.Same

namespace Scriptlet

/-! ## Plain data -/

mutual

/-- Whether two plain data are the same.  The fields of an object have no order, and doubles are
compared by their values. -/
def Json.same : Json → Json → Bool
  | null, null => true
  | bool b, bool b' => b == b'
  | int n, int n' => n == n'
  | double x, double x' => x.same x'
  | str s, str s' => s == s'
  | arr items, arr items' => allSame items items'
  | obj fields, obj fields' => fields.length == fields'.length && fieldsIn fields fields'
  | _, _ => false

/-- Whether two lists of plain data are the same. -/
def Json.allSame : List Json → List Json → Bool
  | [], [] => true
  | x :: items, x' :: items' => x.same x' && allSame items items'
  | _, _ => false

/-- Whether each of the fields is among the fields of another object, with the same value. -/
def Json.fieldsIn : List (String × Json) → List (String × Json) → Bool
  | [], _ => true
  | (key, x) :: fields, fields' =>
    (fields'.lookup key).any x.same && fieldsIn fields fields'

end

/-- The types of nodes have different names. -/
lemma NodeType.name_injective {t t' : NodeType} (h : t.name = t'.name) : t = t' := by
  cases t <;> cases t' <;> first | rfl | simp [name] at h

namespace Json

variable {fields fields' : List (String × Json)}

/-- A field that is not asked for does not matter. -/
lemma fieldsIn_cons_of_not_mem {key : String} {y : Json} (h : key ∉ fields.map Prod.fst) :
    fieldsIn fields ((key, y) :: fields') = fieldsIn fields fields' := by
  induction fields with
  | nil => simp only [fieldsIn]
  | cons field fields ih =>
    rw [List.map_cons, List.mem_cons, not_or] at h
    have hkey : (field.1 == key) = false := beq_false_of_ne (Ne.symm h.1)
    rw [fieldsIn, fieldsIn, List.lookup_cons, hkey, ih h.2]

@[simp] lemma same_str (s s' : String) : (str s).same (str s') = (s == s') := by
  simp only [Json.same]

/-- A node is not null. -/
@[simp] lemma same_null_node (t : NodeType) (fields : List (String × Json)) :
    null.same (node t fields) = false := rfl

@[simp] lemma same_node_null (t : NodeType) (fields : List (String × Json)) :
    (node t fields).same null = false := rfl

@[simp] lemma same_null : null.same null = true := rfl

/-- Nodes of different types are different. -/
lemma same_node_of_ne {t t' : NodeType} (h : t ≠ t') (fields fields' : List (String × Json)) :
    (node t fields).same (node t' fields') = false := by
  have hname : (t.name == t'.name) = false :=
    beq_false_of_ne fun heq => h (NodeType.name_injective heq)
  simp [node, Json.same, fieldsIn, hname]

/-- Where things are shown as nodes of different types, the views agree with any comparison of the
things that takes account of the types. -/
lemma same_eq_of_ne {x y : Json} {t t' : NodeType} {same : Bool} (hx : ∃ fields, x = node t fields)
    (hy : ∃ fields, y = node t' fields) (h : t ≠ t') (hsame : same → t = t') :
    x.same y = same := by
  obtain ⟨fields, rfl⟩ := hx
  obtain ⟨fields', rfl⟩ := hy
  rw [same_node_of_ne h]
  cases same with
  | false => rfl
  | true => exact absurd (hsame rfl) h

/-- Nodes of one type are the same if their parts are. -/
lemma same_node (t : NodeType) (h : "type" ∉ fields.map Prod.fst) :
    (node t fields).same (node t fields') =
      (fields.length == fields'.length && fieldsIn fields fields') := by
  simp [node, Json.same, fieldsIn, fieldsIn_cons_of_not_mem h]

/-- A node with a single part. -/
lemma same_single (t : NodeType) {key : String} (h : "type" ≠ key) (x y : Json) :
    (node t [(key, x)]).same (node t [(key, y)]) = x.same y := by
  rw [same_node t (by simpa using h)]
  simp [fieldsIn]

/-- A node with an operator and two operands. -/
lemma same_operation (t : NodeType) (o o' : String) (l l' r r' : Json) :
    (node t [("operator", str o), ("left", l), ("right", r)]).same
      (node t [("operator", str o'), ("left", l'), ("right", r')]) =
        (o == o' && l.same l' && r.same r') := by
  rw [same_node t (by simp)]
  simp [fieldsIn, List.lookup, Bool.and_assoc]

@[simp] lemma same_ofName (a b : String) : (ofName a).same (ofName b) = (a == b) := by
  rw [ofName, ofName, same_single _ (by simp), same_str]

/-! ## Numbers -/

lemma ofNumber_of_toInt? {x : Binary64} {n : Int} (h : x.toInt? = some n) : ofNumber x = int n := by
  rw [ofNumber, h]

lemma ofNumber_of_isFinite {x : Binary64} (hx : x.isFinite) (h : x.toInt? = none) :
    ofNumber x = double x := by
  rw [ofNumber, h]
  exact if_pos hx

/-- Finite numbers have the same view if they have the same value. -/
lemma same_ofNumber {x y : Binary64} (hx : x.isFinite) (hy : y.isFinite) :
    (ofNumber x).same (ofNumber y) = x.same y := by
  have hint : x.same y → x.toInt? = y.toInt? := Binary64.toInt?_eq_of_same hx hy
  rw [Bool.eq_iff_iff]
  cases h : x.toInt? with
  | none =>
    rw [ofNumber_of_isFinite hx h]
    cases h' : y.toInt? with
    | none => rw [ofNumber_of_isFinite hy h', Json.same]
    | some m =>
      rw [ofNumber_of_toInt? h']
      exact ⟨nofun, fun hsame => absurd (hint hsame) (by simp [h, h'])⟩
  | some n =>
    rw [ofNumber_of_toInt? h]
    cases h' : y.toInt? with
    | none =>
      rw [ofNumber_of_isFinite hy h']
      exact ⟨nofun, fun hsame => absurd (hint hsame) (by simp [h, h'])⟩
    | some m =>
      rw [ofNumber_of_toInt? h', Json.same, beq_iff_eq]
      constructor
      · rintro rfl
        exact Binary64.same_of_toInt? h h'
      · intro hsame
        exact Option.some.inj (h.symm.trans ((hint hsame).trans h'))

end Json

/-! ## Expressions -/

/-- The numbers in an expression. -/
def Expr.numbers : Expr → List Binary64
  | assign _ _ value => value.numbers
  | logical _ left right | binary _ left right => left.numbers ++ right.numbers
  | unary _ argument => argument.numbers
  | number value => [value]
  | ident _ | text _ | bool _ | null => []

namespace Expr

variable {e e' : Expr}

lemma exists_toJson_eq_node (e : Expr) : ∃ fields, e.toJson = .node e.nodeType fields := by
  cases e <;> exact ⟨_, rfl⟩

lemma nodeType_eq_of_same (h : e.same e') : e.nodeType = e'.nodeType := by
  cases e <;> cases e' <;> first | rfl | simp [Expr.same] at h

lemma same_toJson_of_ne (h : e.nodeType ≠ e'.nodeType) :
    e.toJson.same e'.toJson = e.same e' :=
  Json.same_eq_of_ne e.exists_toJson_eq_node e'.exists_toJson_eq_node h nodeType_eq_of_same

lemma same_self (e : Expr) (he : ∀ x ∈ e.numbers, x.isFinite) : e.same e := by
  induction e with
  | assign o n v ih => simp [Expr.same, ih he]
  | logical o l r ihl ihr | binary o l r ihl ihr =>
    obtain ⟨hl, hr⟩ := List.forall_mem_append.mp he
    simp [Expr.same, ihl hl, ihr hr]
  | unary o a ih => simp [Expr.same, ih he]
  | number x =>
    have hx : x.isFinite := he x List.mem_cons_self
    exact Binary64.same_self.mpr (Binary64.isNaN_of_isFinite hx)
  | ident n | text s | bool b => simp [Expr.same]
  | null => rfl

/-- **Expressions have the same view exactly when they are the same.** -/
lemma same_toJson (e e' : Expr) (he : ∀ x ∈ e.numbers, x.isFinite)
    (he' : ∀ x ∈ e'.numbers, x.isFinite) : e.toJson.same e'.toJson = e.same e' := by
  induction e generalizing e' with
  | assign o n v ih =>
    cases e' with
    | assign o' n' v' =>
      rw [toJson, toJson, Json.same_operation, Json.same_ofName, ih v' he he', Expr.same]
    | _ => exact same_toJson_of_ne nofun
  | logical o l r ihl ihr =>
    cases e' with
    | logical o' l' r' =>
      obtain ⟨hl, hr⟩ := List.forall_mem_append.mp he
      obtain ⟨hl', hr'⟩ := List.forall_mem_append.mp he'
      rw [toJson, toJson, Json.same_operation, ihl l' hl hl', ihr r' hr hr', Expr.same]
    | _ => exact same_toJson_of_ne nofun
  | binary o l r ihl ihr =>
    cases e' with
    | binary o' l' r' =>
      obtain ⟨hl, hr⟩ := List.forall_mem_append.mp he
      obtain ⟨hl', hr'⟩ := List.forall_mem_append.mp he'
      rw [toJson, toJson, Json.same_operation, ihl l' hl hl', ihr r' hr hr', Expr.same]
    | _ => exact same_toJson_of_ne nofun
  | unary o a ih =>
    cases e' with
    | unary o' a' =>
      rw [toJson, toJson, Json.same_node _ (by simp)]
      simp [Json.fieldsIn, List.lookup, Expr.same, ih a' he he']
    | _ => exact same_toJson_of_ne nofun
  | ident n =>
    cases e' with
    | ident n' => rw [toJson, toJson, Json.same_ofName, Expr.same]
    | _ => exact same_toJson_of_ne nofun
  | number x =>
    cases e' with
    | number x' =>
      have hx : x.isFinite := he x List.mem_cons_self
      have hx' : x'.isFinite := he' x' List.mem_cons_self
      rw [toJson, toJson, Json.same_single _ (by simp), Json.same_ofNumber hx hx', Expr.same]
    | _ => exact same_toJson_of_ne nofun
  | text s =>
    cases e' with
    | text s' => rw [toJson, toJson, Json.same_single _ (by simp), Json.same_str, Expr.same]
    | _ => exact same_toJson_of_ne nofun
  | bool b =>
    cases e' with
    | bool b' => rw [toJson, toJson, Json.same_single _ (by simp), Json.same, Expr.same]
    | _ => exact same_toJson_of_ne nofun
  | null =>
    cases e' with
    | null => rfl
    | _ => exact same_toJson_of_ne nofun

end Expr

/-! ## Statements -/

/-- The numbers in a declaration. -/
def Declaration.numbers (d : Declaration) : List Binary64 := d.init.toList.flatMap Expr.numbers

mutual

/-- The numbers in a statement. -/
def Stmt.numbers : Stmt → List Binary64
  | expr expression => expression.numbers
  | block body => allNumbers body
  | empty => []
  | declare declarations => declarations.flatMap Declaration.numbers
  | ifThen test consequent => test.numbers ++ consequent.numbers
  | ifElse test consequent alternate => test.numbers ++ (consequent.numbers ++ alternate.numbers)

/-- The numbers in statements. -/
def Stmt.allNumbers : List Stmt → List Binary64
  | [] => []
  | s :: body => s.numbers ++ allNumbers body

end

/-- The numbers in a program. -/
def Program.numbers (p : Program) : List Binary64 := Stmt.allNumbers p.body

namespace Declaration

lemma same_self (d : Declaration) (hd : ∀ x ∈ d.numbers, x.isFinite) : d.same d := by
  obtain ⟨name, init⟩ := d
  cases init with
  | none => simp [Declaration.same]
  | some e =>
    have he : e.same e := e.same_self (by simpa [numbers] using hd)
    simp [Declaration.same, he]

lemma allSame_self (ds : List Declaration) (hds : ∀ x ∈ ds.flatMap numbers, x.isFinite) :
    allSame ds ds := by
  induction ds with
  | nil => rfl
  | cons d ds ih =>
    obtain ⟨hd, hds⟩ := List.forall_mem_append.mp hds
    rw [allSame, same_self d hd, ih hds]
    rfl

lemma same_toJson (d d' : Declaration) (hd : ∀ x ∈ d.numbers, x.isFinite)
    (hd' : ∀ x ∈ d'.numbers, x.isFinite) : d.toJson.same d'.toJson = d.same d' := by
  obtain ⟨name, init⟩ := d
  obtain ⟨name', init'⟩ := d'
  rw [toJson, toJson, Json.same_node _ (by simp)]
  simp only [Json.fieldsIn, List.lookup, Declaration.same]
  -- No expression is null, which stands for one that is missing.
  cases init with
  | none =>
    cases init' with
    | none => simp
    | some e' =>
      obtain ⟨fields', he'⟩ := e'.exists_toJson_eq_node
      simp [he']
  | some e =>
    cases init' with
    | none =>
      obtain ⟨fields, he⟩ := e.exists_toJson_eq_node
      simp [he]
    | some e' =>
      have hsame : e.toJson.same e'.toJson = e.same e' :=
        e.same_toJson e' (by simpa [numbers] using hd) (by simpa [numbers] using hd')
      simp [hsame]

lemma allSame_toJson (ds ds' : List Declaration)
    (hds : ∀ x ∈ ds.flatMap numbers, x.isFinite) (hds' : ∀ x ∈ ds'.flatMap numbers, x.isFinite) :
    Json.allSame (ds.map (·.toJson)) (ds'.map (·.toJson)) = allSame ds ds' := by
  induction ds generalizing ds' with
  | nil => cases ds' <;> rfl
  | cons d ds ih =>
    cases ds' with
    | nil => rfl
    | cons d' ds' =>
      obtain ⟨hd, hds⟩ := List.forall_mem_append.mp hds
      obtain ⟨hd', hds'⟩ := List.forall_mem_append.mp hds'
      rw [List.map_cons, List.map_cons, Json.allSame, same_toJson d d' hd hd', ih ds' hds hds',
        allSame]

end Declaration

namespace Stmt

variable {s s' : Stmt}

lemma exists_toJson_eq_node (s : Stmt) : ∃ fields, s.toJson = .node s.nodeType fields := by
  cases s <;> exact ⟨_, by rw [toJson, nodeType]⟩

lemma nodeType_eq_of_same (h : s.same s') : s.nodeType = s'.nodeType := by
  cases s <;> cases s' <;> first | rfl | simp [Stmt.same] at h

lemma same_toJson_of_ne (h : s.nodeType ≠ s'.nodeType) :
    s.toJson.same s'.toJson = s.same s' :=
  Json.same_eq_of_ne s.exists_toJson_eq_node s'.exists_toJson_eq_node h nodeType_eq_of_same

mutual

lemma same_self (s : Stmt) (hs : ∀ x ∈ s.numbers, x.isFinite) : s.same s := by
  cases s with
  | expr e => exact e.same_self hs
  | block body => exact allSame_self body hs
  | empty => rfl
  | declare ds => exact Declaration.allSame_self ds hs
  | ifThen t c =>
    obtain ⟨ht, hc⟩ := List.forall_mem_append.mp hs
    rw [Stmt.same, t.same_self ht, same_self c hc]
    rfl
  | ifElse t c a =>
    obtain ⟨ht, hs⟩ := List.forall_mem_append.mp hs
    obtain ⟨hc, ha⟩ := List.forall_mem_append.mp hs
    rw [Stmt.same, t.same_self ht, same_self c hc, same_self a ha]
    rfl

lemma allSame_self (body : List Stmt) (hbody : ∀ x ∈ allNumbers body, x.isFinite) :
    allSame body body := by
  cases body with
  | nil => rfl
  | cons s body =>
    obtain ⟨hs, hbody⟩ := List.forall_mem_append.mp hbody
    rw [allSame, same_self s hs, allSame_self body hbody]
    rfl

end

/-- A node of an `if`. -/
lemma same_conditional (t t' c c' a a' : Json) :
    (Json.node .ifStatement [("test", t), ("consequent", c), ("alternate", a)]).same
      (.node .ifStatement [("test", t'), ("consequent", c'), ("alternate", a')]) =
        (t.same t' && c.same c' && a.same a') := by
  rw [Json.same_node _ (by simp)]
  simp [Json.fieldsIn, List.lookup, Bool.and_assoc]

mutual

/-- **Statements have the same view exactly when they are the same.** -/
lemma same_toJson (s s' : Stmt) (hs : ∀ x ∈ s.numbers, x.isFinite)
    (hs' : ∀ x ∈ s'.numbers, x.isFinite) : s.toJson.same s'.toJson = s.same s' := by
  cases s with
  | expr e =>
    cases s' with
    | expr e' =>
      rw [toJson, toJson, Json.same_single _ (by simp), e.same_toJson e' hs hs', Stmt.same]
    | _ => exact same_toJson_of_ne nofun
  | block body =>
    cases s' with
    | block body' =>
      rw [toJson, toJson, Json.same_single _ (by simp), Json.same, allSame_toJson body body' hs hs',
        Stmt.same]
    | _ => exact same_toJson_of_ne nofun
  | empty =>
    cases s' with
    | empty => rfl
    | _ => exact same_toJson_of_ne nofun
  | declare ds =>
    cases s' with
    | declare ds' =>
      rw [toJson, toJson, Json.same_single _ (by simp), Json.same,
        Declaration.allSame_toJson ds ds' hs hs', Stmt.same]
    | _ => exact same_toJson_of_ne nofun
  | ifThen t c =>
    obtain ⟨ht, hc⟩ := List.forall_mem_append.mp hs
    cases s' with
    | ifThen t' c' =>
      obtain ⟨ht', hc'⟩ := List.forall_mem_append.mp hs'
      rw [toJson, toJson, same_conditional, t.same_toJson t' ht ht', same_toJson c c' hc hc',
        Json.same_null, Bool.and_true, Stmt.same]
    | ifElse t' c' a' =>
      -- The view of the `else` is a node and not null.
      obtain ⟨fields', ha'⟩ := a'.exists_toJson_eq_node
      rw [toJson, toJson, same_conditional, ha', Json.same_null_node, Bool.and_false, Stmt.same]
      all_goals nofun
    | _ => exact same_toJson_of_ne nofun
  | ifElse t c a =>
    obtain ⟨ht, hs⟩ := List.forall_mem_append.mp hs
    obtain ⟨hc, ha⟩ := List.forall_mem_append.mp hs
    cases s' with
    | ifThen t' c' =>
      obtain ⟨fields, ha⟩ := a.exists_toJson_eq_node
      rw [toJson, toJson, same_conditional, ha, Json.same_node_null, Bool.and_false, Stmt.same]
      all_goals nofun
    | ifElse t' c' a' =>
      obtain ⟨ht', hs'⟩ := List.forall_mem_append.mp hs'
      obtain ⟨hc', ha'⟩ := List.forall_mem_append.mp hs'
      rw [toJson, toJson, same_conditional, t.same_toJson t' ht ht', same_toJson c c' hc hc',
        same_toJson a a' ha ha', Stmt.same]
    | _ => exact same_toJson_of_ne nofun

lemma allSame_toJson (body body' : List Stmt) (hbody : ∀ x ∈ allNumbers body, x.isFinite)
    (hbody' : ∀ x ∈ allNumbers body', x.isFinite) :
    Json.allSame (toJsons body) (toJsons body') = allSame body body' := by
  cases body with
  | nil => cases body' <;> rfl
  | cons s body =>
    cases body' with
    | nil => rfl
    | cons s' body' =>
      obtain ⟨hs, hbody⟩ := List.forall_mem_append.mp hbody
      obtain ⟨hs', hbody'⟩ := List.forall_mem_append.mp hbody'
      rw [toJsons, toJsons, Json.allSame, same_toJson s s' hs hs',
        allSame_toJson body body' hbody hbody', allSame]

end

end Stmt

/-! ## Programs -/

lemma Program.same_toJson (p q : Program) (hp : ∀ x ∈ p.numbers, x.isFinite)
    (hq : ∀ x ∈ q.numbers, x.isFinite) : p.toJson.same q.toJson = p.same q := by
  rw [toJson, toJson, Json.same_single _ (by simp), Json.same,
    Stmt.allSame_toJson p.body q.body hp hq, Program.same]

/-- **The plain view loses nothing.**  If all numbers of two programs are finite, programs with
equal views are the same; and where views are compared as data, with the fields of an object in any
order and doubles by their values, they are the same exactly if the programs are. -/
theorem toJson_determines_program (p q : Program) (hp : ∀ x ∈ p.numbers, x.isFinite)
    (hq : ∀ x ∈ q.numbers, x.isFinite) :
    (p.toJson = q.toJson → p.same q) ∧ (p.toJson.same q.toJson ↔ p.same q) := by
  refine ⟨fun heq => ?_, by rw [p.same_toJson q hp hq]⟩
  have hself : p.same p := Stmt.allSame_self p.body hp
  rw [← p.same_toJson q hp hq, ← heq, p.same_toJson p hp hp]
  exact hself

/-- The two zeros have one view, and programs that differ in them alone are the same. -/
theorem toJson_determines_program_zeros :
    let program (x : Binary64) : Program :=
      ⟨[.ifThen .null (.declare [⟨"x", none⟩, ⟨"y", some (.number x)⟩])]⟩
    (∀ x ∈ (program ⟨0⟩).numbers, x.isFinite) ∧
      (∀ x ∈ (program ⟨0x8000000000000000⟩).numbers, x.isFinite) ∧
      (program ⟨0⟩).toJson = (program ⟨0x8000000000000000⟩).toJson ∧
      (program ⟨0⟩).same (program ⟨0x8000000000000000⟩) := by
  intro program
  have hp : ∀ x ∈ (program ⟨0⟩).numbers, x.isFinite := by decide
  have hq : ∀ x ∈ (program ⟨0x8000000000000000⟩).numbers, x.isFinite := by decide
  have hzero {x : Binary64} (h : x.magnitude = 0) : Json.ofNumber x = .int 0 :=
    Json.ofNumber_of_toInt? (Binary64.toInt?_of_magnitude_zero h)
  have hpositive : Json.ofNumber ⟨0⟩ = .int 0 := hzero (by decide)
  have hnegative : Json.ofNumber ⟨0x8000000000000000⟩ = .int 0 := hzero (by decide)
  have heq : (program ⟨0⟩).toJson = (program ⟨0x8000000000000000⟩).toJson := by
    simp [program, Program.toJson, Stmt.toJson, Declaration.toJson, Expr.toJson, hpositive,
      hnegative]
  exact ⟨hp, hq, heq, (toJson_determines_program _ _ hp hq).1 heq⟩

end Scriptlet

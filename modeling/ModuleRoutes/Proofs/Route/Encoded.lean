import ModuleRoutes.Proofs.HandlerKey
import ModuleRoutes.Proofs.Json.RoundTrip
import ModuleRoutes.Proofs.Outcome
import ModuleRoutes.Route.Encoded

/-!
# Routes as JSON

A route whose key can be told apart in its text is read back from its JSON, whatever its path and
its response shape, and so is a list of such routes from its text
(`ModuleRoutes.Route.listOfJsonText_write`).
-/

namespace ModuleRoutes

open Encoding

theorem HandlerKey.read_text {key : HandlerKey} (wellFormed : key.IsWellFormed) :
    HandlerKey.read (.text key.text) = .ok key := by
  simp only [HandlerKey.read, Datum.readText, bind, Except.bind, parse_text wellFormed]
  rfl

namespace Route

theorem numberFree_toJson (route : Route) : route.toJson.numberFree = true := by
  rw [toJson, Json.numberFree, Json.fieldsNumberFree_append, Json.fieldsNumberFree_optionalText]
  rfl

theorem toDatum_toJson (route : Route) :
    route.toJson.toDatum = .record
      ([(some "path", .text route.path), (some "method", .text route.method.text),
          (some "handlerKey", .text route.handlerKey.text)] ++
        optionalField "responseShape" route.responseShape) true := by
  rw [toJson, Json.toDatum_obj, Json.fieldData_append, Json.fieldData_optionalText]
  rfl

/-- A route is read back from its data, field by field. -/
theorem read_toDatum {route : Route} (wellFormed : route.handlerKey.IsWellFormed) :
    read .json route.toJson.toDatum = .ok route := by
  rw [toDatum_toJson]
  obtain ⟨path, method, key, shape⟩ := route
  have takesPath : (reader .json).takeField (reader .json).start (some "path", .text path) =
      .ok ⟨some path, none, none, none⟩ := rfl
  have takesMethod : (reader .json).takeField ⟨some path, none, none, none⟩
      (some "method", .text method.text) = .ok ⟨some path, some method, none, none⟩ := by
    cases method <;> rfl
  have takesKey : (reader .json).takeField ⟨some path, some method, none, none⟩
      (some "handlerKey", .text key.text) = .ok ⟨some path, some method, some key, none⟩ := by
    have known : (reader .json).knows "handlerKey" = true := by decide
    rw [RecordReader.takeField, if_pos known]
    simp only [reader, Datum.readOnce, HandlerKey.read_text wellFormed]
    rfl
  have takesShape : (reader .json).Takes ⟨some path, some method, some key, none⟩
      (optionalField "responseShape" shape)
      ⟨some path, some method, some key, shape.map some⟩ := by
    cases shape <;> rfl
  have finishes : (reader .json).finish ⟨some path, some method, some key, shape.map some⟩ =
      .ok ⟨path, method, key, shape⟩ := by
    cases shape <;> rfl
  exact RecordReader.read_of_takes
    (.append (.cons takesPath (.cons takesMethod (.cons takesKey (.nil _)))) takesShape) finishes

/-- A list of routes as a JSON array. -/
def listJson (routes : List Route) : Json := .arr (routes.map toJson)

/-- A list of routes is read back from its text, compact or not. -/
theorem listOfJsonText_write {routes : List Route}
    (wellFormed : ∀ route ∈ routes, route.handlerKey.IsWellFormed) (pretty : Bool) :
    listOfJsonText (String.ofList ((listJson routes).write pretty 0)) = .ok routes := by
  have free : (listJson routes).numberFree = true := by
    rw [listJson, Json.numberFree]
    exact Json.itemsNumberFree_map numberFree_toJson routes
  refine Json.decode_write free ?_ pretty
  rw [listJson, Json.toDatum_arr_map]
  exact Datum.readList_map fun route member => read_toDatum (wellFormed route member)

end Route

end ModuleRoutes

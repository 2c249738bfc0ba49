import JsxAttributes.Vocabulary.Table

/-!
The properties of WAI-ARIA, which belong to no namespace. The words after `aria` follow a dash in
the attribute name; `role` stands alone.
-/
namespace JsxAttributes.Vocabulary

def ariaProperties : List (String × Shape) := [
  ("ariaActiveDescendant", .plain), ("ariaAtomic", .boolish), ("ariaAutoComplete", .plain),
  ("ariaBusy", .boolish), ("ariaChecked", .boolish), ("ariaColCount", .num),
  ("ariaColIndex", .num), ("ariaColSpan", .num), ("ariaControls", .spaces),
  ("ariaCurrent", .plain), ("ariaDescribedBy", .spaces), ("ariaDetails", .plain),
  ("ariaDisabled", .boolish), ("ariaDropEffect", .spaces), ("ariaErrorMessage", .plain),
  ("ariaExpanded", .boolish), ("ariaFlowTo", .spaces), ("ariaGrabbed", .boolish),
  ("ariaHasPopup", .plain), ("ariaHidden", .boolish), ("ariaInvalid", .plain),
  ("ariaKeyShortcuts", .plain), ("ariaLabel", .plain), ("ariaLabelledBy", .spaces),
  ("ariaLevel", .num), ("ariaLive", .plain), ("ariaModal", .boolish), ("ariaMultiLine", .boolish),
  ("ariaMultiSelectable", .boolish), ("ariaOrientation", .plain), ("ariaOwns", .spaces),
  ("ariaPlaceholder", .plain), ("ariaPosInSet", .num), ("ariaPressed", .boolish),
  ("ariaReadOnly", .boolish), ("ariaRelevant", .plain), ("ariaRequired", .boolish),
  ("ariaRoleDescription", .spaces), ("ariaRowCount", .num), ("ariaRowIndex", .num),
  ("ariaRowSpan", .num), ("ariaSelected", .boolish), ("ariaSetSize", .num), ("ariaSort", .plain),
  ("ariaValueMax", .num), ("ariaValueMin", .num), ("ariaValueNow", .num),
  ("ariaValueText", .plain), ("role", .plain)]

def aria : Vocabulary where
  space := none
  suggestedAttribute property :=
    if property == "role" then property else "aria-" ++ Text.lowercased (dropChars 4 property)
  properties := ariaProperties

end JsxAttributes.Vocabulary

import JsxAttributes.Vocabulary.Table

/-!
The properties with a namespace of their own in XML: `xml:*`, `xlink:*` and `xmlns:*`.
-/
namespace JsxAttributes.Vocabulary

def xml : Vocabulary where
  space := some .xml
  suggestedAttribute property := "xml:" ++ Text.lowercased (dropChars 3 property)
  properties := [("xmlBase", .plain), ("xmlLang", .plain), ("xmlSpace", .plain)]

def xlink : Vocabulary where
  space := some .xlink
  suggestedAttribute property := "xlink:" ++ Text.lowercased (dropChars 5 property)
  properties := [
    ("xLinkActuate", .plain), ("xLinkArcRole", .plain), ("xLinkHref", .plain),
    ("xLinkRole", .plain), ("xLinkShow", .plain), ("xLinkTitle", .plain), ("xLinkType", .plain)]

def xmlns : Vocabulary where
  space := some .xmlns
  suggestedAttribute := Text.lowercased
  exceptions := [("xmlnsxlink", "xmlns:xlink")]
  properties := [("xmlnsXLink", .plain), ("xmlns", .plain)]

end JsxAttributes.Vocabulary

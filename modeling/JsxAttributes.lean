import JsxAttributes.Attribute.Trace
import JsxAttributes.Expression.Decode
import JsxAttributes.Json.Reader
import JsxAttributes.Proofs.EncodedValue
import JsxAttributes.Proofs.ExpressionReading
import JsxAttributes.Proofs.EntryMapping
import JsxAttributes.Proofs.StyleObject
import JsxAttributes.Proofs.StyleWriting
import JsxAttributes.Proofs.StylePositions
import JsxAttributes.Proofs.StyleCommentPlaces
import JsxAttributes.Proofs.Remapping
import JsxAttributes.Proofs.StyleAttribute
import JsxAttributes.Proofs.Resolution
import JsxAttributes.Proofs.NumberText
import JsxAttributes.Proofs.TokenTexts
import JsxAttributes.Proofs.StyleVendors
import JsxAttributes.Proofs.StyleDeclarations
import JsxAttributes.Proofs.StyleBacktracking
import JsxAttributes.Proofs.PropertyHistory
import JsxAttributes.Proofs.PropertyEquality
import JsxAttributes.Proofs.AttributeJson

import JsonQuery.Expr.Stable
import JsonQuery.Json.Reader
import JsonQuery.Proofs.Eval.KeyTest
import JsonQuery.Proofs.Expr.Reached
import JsonQuery.Proofs.Expr.RoundTrip
import JsonQuery.Proofs.Session.Unread
import JsonQuery.Proofs.Query.Stages
import JsonQuery.Proofs.Session.Cursors
import JsonQuery.Session
import JsonQuery.Proofs.LocationSet.Calls
import JsonQuery.Proofs.Query.Firsts
import JsonQuery.Proofs.Eval.Behind
import JsonQuery.Proofs.Query.Base
import JsonQuery.Proofs.Text.Content
import JsonQuery.Proofs.Token.Longest
import JsonQuery.Proofs.Query.Address
import JsonQuery.Proofs.KeyCache.Cost
import JsonQuery.Proofs.Search.Answered
import JsonQuery.Proofs.Session.Remembered
import JsonQuery.Proofs.Eval.Visited
import JsonQuery.Proofs.Query.Descent
import JsonQuery.Proofs.Eval.Trusted
import JsonQuery.Proofs.Eval.Compared
import JsonQuery.Proofs.Query.Existence
import JsonQuery.Proofs.Query.Union
import JsonQuery.Proofs.Session.Below
import JsonQuery.Proofs.Eval.Positions
import JsonQuery.Proofs.Query.Scanned
import JsonQuery.Proofs.Expr.Refused
import JsonQuery.Proofs.Token.Joined
import JsonQuery.Proofs.Token.Fault
import JsonQuery.Proofs.Token.Quoted
import JsonQuery.Proofs.Location.Form
import JsonQuery.Proofs.Token.Names
